import Upmpdcli.Cdplugins.Uprcl.TagsCreateRows

set_option autoImplicit false

/- For which configurations the tables of the tags have all the values of the documents. -/
namespace Upmpdcli.Uprcl

/-- `_otherneededfields`. -/
def otherneededfields : List String :=
  ["albumartist", "allartists", "comment", "composer", "conductor", "contentgroup", "date",
    "dmtime", "discnumber", "embdimg", "filename", "genre", "group", "label", "lyricist",
    "orchestra", "performer"]

/-- `allMinimTags`. The `indexTags` are a list of pairs, to which no name can be assigned: the
first of the `itemTags` raises an exception, which is ignored. -/
def allMinimTags (conf : TagConf) : List Str :=
  if conf.itemtags = [] then
    (conf.indextags.map fun tag => conf.lower tag.1).takeWhile (· ≠ "none".toList)
  else []

/-- The fields which the store has for a document: the ones it has of its own and the ones it is
asked to have. -/
def storedFields (own : List String) (conf : TagConf) : List String :=
  own ++ upnp2rclfields.map Prod.snd ++ otherneededfields ++
    (allMinimTags conf).map String.ofList

/-- A document as `_fetchalldocs` keeps it. Without a store of results it has all its fields. -/
def fetched (env : Env) (own : List String) (conf : TagConf) (doc : Doc) : Doc :=
  if env.hasResultstore then
    { doc with fields := doc.fields.filter fun field => field.1 ∈ storedFields own conf }
  else doc

/-- The field of a document which carries a tag. -/
def carrier (conf : TagConf) (nm : Str) : Str :=
  if nm = "Group".toList then "group".toList
  else if nm = "All Artists".toList then "artist".toList
  else (alltagtotable.lookup nm).getD (conf.lower nm)

/-- What it has for the tag, with the substitutions for `Artist` and `Date`. -/
def carriedValue (conf : TagConf) (doc : Doc) (nm : Str) : Str :=
  if nm = "All Artists".toList then doc.get "artist" else tagValue doc (carrier conf nm)

def carriedValues (conf : TagConf) (doc : Doc) (nm : Str) : List Str :=
  if carriedValue conf doc nm = [] then []
  else Text.split " | ".toList (carriedValue conf doc nm)

section Builds

variable (env : Env) (own : List String) (conf : TagConf) (tables : List (Str × Str))
  (docs : List Doc)

/-- The build succeeds, and the rows of every document for every tag of the configuration are the
values which it has for the tag. Only tracks have rows. -/
def TablesComplete : Prop :=
  ∃ tags db, recolltosql env conf tables (docs.map (fetched env own conf)) = some (tags, db) ∧
    ∀ nm ∈ configured conf, ∃ tb, tags.tables.lookup nm = some tb ∧
      ∀ (docidx : Nat) (doc : Doc), docs[docidx]? = some doc →
        rowsOf db tb docidx = if isTrack doc then (carriedValues conf doc nm).map some else []

/-- What is read of a document for a tag, once for each time that its table is configured. -/
def readValues (doc : Doc) (nm : Str) : List Str :=
  (List.replicate (((configured conf).map (tableOf conf tables)).count (tableOf conf tables nm))
    (tagValues (fetched env own conf doc) (rclfield (tableOf conf tables nm)))).flatten

/-- A track which the build gets over. -/
structure Usable (doc : Doc) : Prop where
  album : usableKey env (fetched env own conf doc) ≠ none
  number : fitsInteger (tracknofordoc (fetched env own conf doc)) = true

/-- The condition on the configuration and the documents. -/
structure ConfigFits : Prop where
  accepted : ∀ tb ∈ createdTables conf tables, conf.accepts tb = true
  albums : "albums".toList ∉ createdTables conf tables
  tracks : (∃ doc ∈ docs, isTrack doc = true) → "tracks".toList ∉ createdTables conf tables
  usable : ∀ doc ∈ docs, isTrack doc = true → Usable env own conf doc
  stands : ∀ nm ∈ configured conf, ∀ doc ∈ docs, isTrack doc = true →
    tagValues (fetched env own conf doc) (rclfield (tableOf conf tables nm)) = [] ∨
      Stands (createdTables conf tables) (tableOf conf tables nm)
  carried : ∀ nm ∈ configured conf, ∀ doc ∈ docs, isTrack doc = true →
    readValues env own conf tables doc nm = carriedValues conf doc nm

end Builds

section Fetching

variable {env : Env} {own : List String} {conf : TagConf}

theorem lookup_filter (fields : List (String × Str)) (kept : List String) (field : String) :
    (fields.filter fun entry => entry.1 ∈ kept).lookup field =
      if field ∈ kept then fields.lookup field else none := by
  induction fields with
  | nil => simp
  | cons entry rest ih =>
      obtain ⟨name, value⟩ := entry
      by_cases here : field = name
      · subst here
        by_cases inside : field ∈ kept
        · simp [inside]
        · simp [inside, ih]
      · by_cases inside : name ∈ kept
        · simp only [List.filter_cons, inside, decide_true, if_true, List.lookup_cons, ih,
            beq_false_of_ne here]
        · simp only [List.filter_cons, inside, decide_false, Bool.false_eq_true, if_false,
            List.lookup_cons, ih, beq_false_of_ne here]

theorem get_fetched {field : String} (kept : field ∈ storedFields own conf) (doc : Doc) :
    (fetched env own conf doc).get field = doc.get field := by
  unfold fetched
  split
  · unfold Doc.get
    dsimp only
    rw [lookup_filter, if_pos kept]
  · rfl

theorem isTrack_fetched (doc : Doc) : isTrack (fetched env own conf doc) = isTrack doc := by
  have kept : "mtype" ∈ storedFields own conf := by
    unfold storedFields
    simp [upnp2rclfields]
  unfold isTrack
  rw [get_fetched kept]

end Fetching

section Building

variable {env : Env} {conf : TagConf} {tables : List (Str × Str)} {rcldocs : List Doc}

/-- `recolltosql`, when the tables have been created. -/
def buildFrom (env : Env) (tags : Tags) (rcldocs : List Doc) (db : Db) : Option (Tags × Db) := do
  let (db, variousartistsid) ← auxtableinsert db "artist".toList "Various Artists".toList
  let db ← addDocs env tags rcldocs 0 db
  let albums ← db.albums
  let albums ← setalbumcovers env rcldocs (db.tracks.getD [])
    (setalbumartists env variousartistsid albums)
  return (tags, { db with albums := some (createmergedalbums env albums) })

theorem recolltosql_created :
    recolltosql env conf tables rcldocs =
      if (createdTables conf tables).all conf.accepts then
        buildFrom env (preparedTags conf tables) rcldocs
          ((createdTables conf tables).foldl emptied emptyDb)
      else none := by
  have created : recolltosql env conf tables rcldocs =
      ((createdTables conf tables).foldlM (createTagTables conf.accepts) emptyDb).bind
        (buildFrom env (preparedTags conf tables) rcldocs) := by
    unfold recolltosql createsqdb createdTables
    simp only [prepareTags_eq, List.foldlM_append, bind, Option.bind_map, Option.bind_assoc]
    rfl
  rw [created, foldlM_createTagTables]
  split <;> rfl

theorem walked_created {names : List Str} (artist : "artist".toList ∈ names)
    (albums : "albums".toList ∉ names) :
    Walked (Stands names) (fun _ => []) (names.foldl emptied emptyDb) where
  holds tb stands := by
    obtain ⟨values, junctions⟩ := (created_stands names tb).1 stands
    exact ⟨[], [], values, junctions, rfl⟩
  gone tb lost := by
    rcases created_junctions names (junctb tb) with none_there | empty
    · exact .inl none_there
    · rcases (created_stands names tb).2 lost with none_there | none_there
      · exact .inr ⟨none_there, empty⟩
      · exact .inl none_there
  artist := by
    rw [created_artist artist]
    exact nofun
  albums := by
    rw [created_albums, if_neg albums]
    exact nofun

theorem auxtableinsert_frame {db db' : Db} {tb value : Str} {rowid : Nat}
    (inserted : auxtableinsert db tb value = some (db', rowid)) : db'.albums = db.albums := by
  obtain ⟨_, _, -, -, -, rfl⟩ := auxtableinsert_spec inserted
  rfl

/-- Without a table of albums the build fails. -/
theorem buildFrom_without_albums {tags : Tags} {db : Db} (dropped : db.albums = none) :
    buildFrom env tags rcldocs db = none := by
  have one (db : Db) (doc : Doc) (docidx : Nat) (dropped : db.albums = none) (db' : Db)
      (added : addDoc env tags db doc docidx = some db') : db'.albums = none := by
    unfold addDoc at added
    split at added
    · simp only [maybecreatealbum, bind, Option.bind_eq_some_iff] at added
      obtain ⟨_, ⟨_, -, ⟨db₁, artist_id⟩, artist, rest⟩, -⟩ := added
      have same : db₁.albums = db.albums := by
        unfold albumArtist at artist
        split at artist
        · cases artist
          rfl
        · obtain ⟨_, inserted, same⟩ := Option.map_eq_some_iff.mp artist
          cases same
          exact auxtableinsert_frame inserted
      rw [same, dropped] at rest
      split at rest <;> cases rest
    · cases added
      exact dropped
  have all (docs : List Doc) (docidx : Nat) (db db' : Db) (dropped : db.albums = none)
      (added : addDocs env tags docs docidx db = some db') : db'.albums = none := by
    induction docs generalizing docidx db with
    | nil =>
        cases added
        exact dropped
    | cons doc rest ih =>
        obtain ⟨db₁, first, later⟩ := Option.bind_eq_some_iff.mp added
        exact ih (docidx + 1) db₁ (one db doc docidx dropped db₁ first) later
  rw [← Option.not_isSome_iff_eq_none, Option.isSome_iff_exists]
  rintro ⟨made, built⟩
  simp only [buildFrom, bind, Option.bind_eq_some_iff] at built
  obtain ⟨⟨db₁, _⟩, inserted, db₂, added, albums, has_albums, -⟩ := built
  rw [all rcldocs 0 db₁ db₂ ((auxtableinsert_frame inserted).trans dropped) added] at has_albums
  cases has_albums

section

variable {stand : Str → Prop} {tags : Tags} {db : Db}

/-- The build from tables in which there is nothing yet. -/
theorem buildFrom_admissible (walked : Walked stand (fun _ => []) db)
    (no_rows : db.tracks.getD [] = [])
    (admissible : ∀ doc ∈ rcldocs,
      Admissible env stand (db.tracks ≠ none) tags.tabtorclfield doc) :
    ∃ db', buildFrom env tags rcldocs db = some (tags, db') ∧
      (∀ tb, (stand tb → Holds db' tb (docsPairs tags.tabtorclfield 0 rcldocs tb)) ∧
        (¬ stand tb → Gone db' tb)) ∧ db'.values "artist".toList ≠ none := by
  obtain ⟨db₁, various, _, inserted, walked₁, -, -, -, tracks₁⟩ :=
    walked.auxtableinsert walked.artist "Various Artists".toList
  obtain ⟨db₂, added, walked₂, tracks₂⟩ := walked₁.addDocs rcldocs 0 (by rwa [tracks₁])
  obtain ⟨albums, has_albums⟩ := Option.ne_none_iff_exists'.mp walked₂.albums
  have folders : ∀ track ∈ db₂.tracks.getD [], HasFolder env rcldocs track := by
    intro track member
    rcases tracks₂ track member with old | ⟨i, doc, there, is_track, place⟩
    · rw [tracks₁, no_rows] at old
      cases old
    · rw [Nat.zero_add] at place
      refine ⟨doc, place ▸ there, docfolder_of_usable ?_⟩
      exact (admissible doc (List.mem_of_getElem? there) is_track).1
  obtain ⟨covered, covers⟩ := Option.ne_none_iff_exists'.mp
    (setalbumcovers_ne_none (setalbumartists env various albums) folders)
  refine ⟨{ db₂ with albums := some (createmergedalbums env covered) }, ?_,
    fun tb => ⟨walked₂.holds tb, walked₂.gone tb⟩, walked₂.artist⟩
  unfold buildFrom
  simp only [inserted, bind, Option.bind_some, added, has_albums, covers]
  rfl

theorem buildFrom_inadmissible (walked : Walked stand (fun _ => []) db)
    (inadmissible : ∃ doc ∈ rcldocs,
      ¬ Admissible env stand (db.tracks ≠ none) tags.tabtorclfield doc) :
    buildFrom env tags rcldocs db = none := by
  obtain ⟨db₁, various, _, inserted, walked₁, -, -, -, tracks₁⟩ :=
    walked.auxtableinsert walked.artist "Various Artists".toList
  unfold buildFrom
  simp only [inserted, bind, Option.bind_some]
  rw [walked₁.addDocs_none rcldocs 0 (by rwa [tracks₁])]
  rfl

end

end Building

section Complete

variable {env : Env} {own : List String} {conf : TagConf} {tables : List (Str × Str)}

theorem rowsOf_gone {db : Db} {tb : Str} (gone : Gone db tb) (docidx : Nat) :
    rowsOf db tb docidx = [] := by
  unfold rowsOf
  rcases gone with none_there | ⟨-, empty⟩
  · rw [none_there]
    rfl
  · rw [empty]
    rfl

/-- The tags of the configuration which have a table. -/
theorem filter_tabtorclfield (conf : TagConf) (tables : List (Str × Str)) (tb : Str) :
    ((preparedTags conf tables).tabtorclfield.filter fun tag => tag.1 = tb) =
      List.replicate (((configured conf).map (tableOf conf tables)).count tb) (tb, rclfield tb) := by
  have pairs : (preparedTags conf tables).tabtorclfield =
      ((configured conf).map (tableOf conf tables)).map fun tb => (tb, rclfield tb) := by
    rw [List.map_map]
    rfl
  rw [pairs, List.filter_map, Function.comp_def, List.filter_eq, List.map_replicate]

/-- What is read of a document for a table, in order. -/
theorem docPairs_fetched (env : Env) (own : List String) (conf : TagConf)
    (tables : List (Str × Str)) (doc : Doc) (docidx : Nat) (nm : Str) :
    (docPairs (preparedTags conf tables).tabtorclfield docidx (fetched env own conf doc)
        (tableOf conf tables nm)).map Prod.snd =
      if isTrack doc then readValues env own conf tables doc nm else [] := by
  unfold docPairs readValues
  rw [isTrack_fetched]
  split
  · rw [filter_tabtorclfield, List.flatMap_def, List.map_replicate, List.map_flatten,
      List.map_replicate, List.map_map]
    simp only [Function.comp_def, List.map_id']
  · rfl

/-- The rows after a build which gets over every document. -/
theorem rowsOf_build {docs : List Doc} {db : Db} {nm : Str}
    (built : (Stands (createdTables conf tables) (tableOf conf tables nm) →
        Holds db (tableOf conf tables nm) (docsPairs (preparedTags conf tables).tabtorclfield 0
          (docs.map (fetched env own conf)) (tableOf conf tables nm))) ∧
      (¬ Stands (createdTables conf tables) (tableOf conf tables nm) →
        Gone db (tableOf conf tables nm)))
    (allowed : ∀ doc ∈ docs, isTrack doc = true →
      tagValues (fetched env own conf doc) (rclfield (tableOf conf tables nm)) = [] ∨
        Stands (createdTables conf tables) (tableOf conf tables nm))
    {docidx : Nat} {doc : Doc} (there : docs[docidx]? = some doc) :
    rowsOf db (tableOf conf tables nm) docidx =
      if isTrack doc then (readValues env own conf tables doc nm).map some else [] := by
  by_cases stands : Stands (createdTables conf tables) (tableOf conf tables nm)
  · have found : (docs.map (fetched env own conf))[docidx]? = some (fetched env own conf doc) := by
      rw [List.getElem?_map, there]
      rfl
    have rows := filter_docsPairs (preparedTags conf tables).tabtorclfield found 0
      (tableOf conf tables nm)
    rw [Nat.zero_add] at rows
    have read := docPairs_fetched env own conf tables doc docidx nm
    rw [rowsOf_eq (built.1 stands), rows, ← Function.comp_def, ← List.map_map, read]
    split <;> rfl
  · rw [rowsOf_gone (built.2 stands)]
    split
    · rename_i track
      have nothing := (allowed doc (List.mem_of_getElem? there) track).resolve_right stands
      unfold readValues
      rw [nothing]
      simp
    · rfl

variable (conf) in
/-- The artists have their table in every build. -/
theorem artist_created (earlier : List Str) :
    "artist".toList ∈ createdTables conf (tablesAfter conf earlier alltagtotable) := by
  have known : ((alltagtotable.lookup "Artist".toList).isSome : Prop) := by decide
  have found := lookup_tablesAfter conf earlier (.inl known)
  have table : tableOf conf alltagtotable "Artist".toList = "artist".toList := by
    have there : alltagtotable.lookup "Artist".toList = some "artist".toList := by decide
    rw [tableOf, there]
    rfl
  rw [table] at found
  exact List.mem_append_left _ (List.mem_map.mpr ⟨_, Dict.mem_of_lookup found, rfl⟩)

/-- The documents which the walk gets over, as they are fetched. -/
theorem admissible_iff (docs : List Doc) :
    (∀ doc ∈ docs.map (fetched env own conf),
        Admissible env (Stands (createdTables conf tables))
          (((createdTables conf tables).foldl emptied emptyDb).tracks ≠ none)
          (preparedTags conf tables).tabtorclfield doc) ↔
      ((∃ doc ∈ docs, isTrack doc = true) → "tracks".toList ∉ createdTables conf tables) ∧
        (∀ doc ∈ docs, isTrack doc = true → Usable env own conf doc) ∧
        ∀ nm ∈ configured conf, ∀ doc ∈ docs, isTrack doc = true →
          tagValues (fetched env own conf doc) (rclfield (tableOf conf tables nm)) = [] ∨
            Stands (createdTables conf tables) (tableOf conf tables nm) := by
  have tracks : ((createdTables conf tables).foldl emptied emptyDb).tracks ≠ none ↔
      "tracks".toList ∉ createdTables conf tables := by
    rw [created_tracks]
    split
    · rename_i dropped
      exact iff_of_false (fun kept => kept rfl) (not_not_intro dropped)
    · rename_i kept
      exact iff_of_true nofun kept
  simp only [List.forall_mem_map, Admissible, isTrack_fetched, tracks, preparedTags]
  constructor
  · intro admissible
    refine ⟨?_, fun doc member track => ?_, fun nm inside doc member track => ?_⟩
    · rintro ⟨doc, member, track⟩
      exact (admissible doc member track).2.2.1
    · obtain ⟨album, number, -, -⟩ := admissible doc member track
      exact ⟨album, number⟩
    · exact (admissible doc member track).2.2.2 nm inside
  · rintro ⟨kept, usable, stands⟩ doc member track
    have fits := usable doc member track
    exact ⟨fits.album, fits.number, kept ⟨doc, member, track⟩,
      fun nm inside => stands nm inside doc member track⟩

/-- After a build which gets over every document, the tables are complete if and only if what is
read is what the tags have. -/
theorem complete_build_iff {docs : List Doc} {db : Db}
    (built : ∀ tb, (Stands (createdTables conf tables) tb →
        Holds db tb (docsPairs (preparedTags conf tables).tabtorclfield 0
          (docs.map (fetched env own conf)) tb)) ∧
      (¬ Stands (createdTables conf tables) tb → Gone db tb))
    (stands : ∀ nm ∈ configured conf, ∀ doc ∈ docs, isTrack doc = true →
      tagValues (fetched env own conf doc) (rclfield (tableOf conf tables nm)) = [] ∨
        Stands (createdTables conf tables) (tableOf conf tables nm)) :
    (∀ nm ∈ configured conf, ∃ tb, (preparedTags conf tables).tables.lookup nm = some tb ∧
      ∀ (docidx : Nat) (doc : Doc), docs[docidx]? = some doc →
        rowsOf db tb docidx = if isTrack doc then (carriedValues conf doc nm).map some else []) ↔
      ∀ nm ∈ configured conf, ∀ doc ∈ docs, isTrack doc = true →
        readValues env own conf tables doc nm = carriedValues conf doc nm := by
  have known : ∀ nm ∈ configured conf,
      (preparedTags conf tables).tables.lookup nm = some (tableOf conf tables nm) :=
    fun nm member => lookup_tablesAfter _ _ (.inr member)
  constructor
  · intro complete nm inside doc member track
    obtain ⟨tb, found, rows⟩ := complete nm inside
    rw [known nm inside, Option.some.injEq] at found
    subst found
    obtain ⟨docidx, there⟩ := List.mem_iff_getElem?.mp member
    have row := rows docidx doc there
    rw [rowsOf_build (built _) (stands nm inside) there, if_pos track, if_pos track] at row
    exact List.map_injective_iff.mpr (Option.some_injective Str) row
  · intro carried nm inside
    refine ⟨_, known nm inside, fun docidx doc there => ?_⟩
    rw [rowsOf_build (built _) (stands nm inside) there]
    split
    · rename_i track
      rw [carried nm inside doc (List.mem_of_getElem? there) track]
    · rfl

/-- For every configuration, after any builds with other ones, and for all documents, the tables
of the tags are complete if and only if the configuration fits. -/
theorem tablesComplete_iff (env : Env) (own : List String) (conf : TagConf) (earlier : List Str)
    (docs : List Doc) :
    TablesComplete env own conf (tablesAfter conf earlier alltagtotable) docs ↔
      ConfigFits env own conf (tablesAfter conf earlier alltagtotable) docs := by
  have artist := artist_created conf earlier
  generalize tablesAfter conf earlier alltagtotable = tables at artist ⊢
  unfold TablesComplete
  rw [recolltosql_created]
  by_cases accepted : (createdTables conf tables).all conf.accepts = true
  · rw [if_pos accepted]
    by_cases albums : "albums".toList ∈ createdTables conf tables
    · rw [buildFrom_without_albums (by rw [created_albums, if_pos albums])]
      exact iff_of_false (by simp) fun fits => fits.albums albums
    · have walked := walked_created artist albums
      have no_rows : ((createdTables conf tables).foldl emptied emptyDb).tracks.getD [] = [] := by
        rw [created_tracks]
        split <;> rfl
      by_cases admissible : ∀ doc ∈ docs.map (fetched env own conf),
          Admissible env (Stands (createdTables conf tables))
            (((createdTables conf tables).foldl emptied emptyDb).tracks ≠ none)
            (preparedTags conf tables).tabtorclfield doc
      · obtain ⟨db, built, holds, -⟩ := buildFrom_admissible walked no_rows admissible
        obtain ⟨tracks, usable, stands⟩ := (admissible_iff docs).mp admissible
        rw [built]
        constructor
        · rintro ⟨tags, db', same, complete⟩
          cases same
          exact ⟨List.all_eq_true.mp accepted, albums, tracks, usable, stands,
            (complete_build_iff holds stands).mp complete⟩
        · intro fits
          exact ⟨_, db, rfl, (complete_build_iff holds stands).mpr fits.carried⟩
      · have fails := admissible
        push Not at fails
        rw [buildFrom_inadmissible walked fails]
        refine iff_of_false (by simp) fun fits => admissible ?_
        exact (admissible_iff docs).mpr ⟨fits.tracks, fits.usable, fits.stands⟩
  · rw [if_neg accepted]
    exact iff_of_false (by simp) fun fits => accepted (List.all_eq_true.mpr fits.accepted)

end Complete

section Examples

/-- A machine with a store of results. -/
def storeEnv : Env := { bareEnv [] with hasResultstore := true }

/-- A configuration of these tags, where every text can be the name of a table. -/
def tagConf (indextags itemtags : List String) : TagConf where
  indextags := indextags.map fun tag => (tag.toList, [])
  itemtags := itemtags.map String.toList
  lower := List.map Char.toLower
  accepts _ := true

def calmTrack : Doc := docAt "audio/flac" "/m/a/1.flac" [("genre", "Jazz | Blues"), ("mood", "calm")]

/-- A tag of the user's own is in the store when there are no item tags. -/
theorem configFits_mood :
    ConfigFits storeEnv ["url"] (tagConf ["Genre", "Mood"] [])
      (tablesAfter (tagConf ["Genre", "Mood"] []) [] alltagtotable) [calmTrack] where
  accepted _ _ := rfl
  albums := by decide
  tracks _ := by decide
  usable doc member _ := by
    rw [List.mem_singleton.mp member]
    exact ⟨by decide, by decide⟩
  stands nm inside _ _ _ := by
    have apart : ∀ nm ∈ configured (tagConf ["Genre", "Mood"] []),
        let names := createdTables (tagConf ["Genre", "Mood"] []) alltagtotable
        let tb := tableOf (tagConf ["Genre", "Mood"] []) alltagtotable nm
        tb ∈ names ∧ ∀ t ∈ names, junctb t ≠ tb ∧ t ≠ junctb tb := by decide
    exact .inr (stands_of_apart (apart nm inside).1 (apart nm inside).2)
  carried nm inside doc member _ := by
    rw [List.mem_singleton.mp member]
    have same : ∀ nm ∈ configured (tagConf ["Genre", "Mood"] []),
        readValues storeEnv ["url"] (tagConf ["Genre", "Mood"] []) alltagtotable calmTrack nm =
          carriedValues (tagConf ["Genre", "Mood"] []) calmTrack nm := by decide
    exact same nm inside

/-- With an item tag, it is not. -/
theorem not_tablesComplete_mood :
    ¬ TablesComplete storeEnv ["url"] (tagConf ["Genre", "Mood"] ["Composer"])
      (tablesAfter (tagConf ["Genre", "Mood"] ["Composer"]) [] alltagtotable) [calmTrack] := by
  rw [tablesComplete_iff]
  intro fits
  have read := fits.carried "Mood".toList (by decide) calmTrack List.mem_cons_self (by decide)
  exact absurd read (by decide)

end Examples

end Upmpdcli.Uprcl
