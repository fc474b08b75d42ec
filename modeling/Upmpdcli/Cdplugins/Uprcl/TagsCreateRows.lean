import Upmpdcli.Cdplugins.Uprcl.TagsCreateOrder
import Upmpdcli.Cdplugins.Uprcl.TagsCreateTables

set_option autoImplicit false

/- The rows which the walk over the documents makes in the junction tables. -/
namespace Upmpdcli.Uprcl

/-- The values which the junction table of a tag has for a document. -/
def rowsOf (db : Db) (tb : Str) (docidx : Nat) : List (Option Str) :=
  (((db.junctions (junctb tb)).getD []).filter fun row => row.1 = docidx).map fun row =>
    ((db.values tb).getD [])[row.2 - 1]?

/-- The tables of a tag hold these values of documents, in order. -/
def Holds (db : Db) (tb : Str) (pairs : List (Nat × Str)) : Prop :=
  ∃ values rows, db.values tb = some values ∧ db.junctions (junctb tb) = some rows ∧
    rows.map (fun row => (row.1, values[row.2 - 1]?)) = pairs.map fun pair => (pair.1, some pair.2)

/-- One of the tables of a tag is gone, and the other one is empty. -/
def Gone (db : Db) (tb : Str) : Prop :=
  db.junctions (junctb tb) = none ∨ db.values tb = none ∧ db.junctions (junctb tb) = some []

/-- What holds of the database all along the walk: the tables which stand hold these values, and
the others are gone. -/
structure Walked (stand : Str → Prop) (pairs : Str → List (Nat × Str)) (db : Db) : Prop where
  holds : ∀ tb, stand tb → Holds db tb (pairs tb)
  gone : ∀ tb, ¬ stand tb → Gone db tb
  artist : db.values "artist".toList ≠ none
  albums : db.albums ≠ none

/-- The values of a document for the table of a tag, which may be read several times. -/
def docPairs (tabtorclfield : List (Str × Str)) (docidx : Nat) (doc : Doc) (tb : Str) :
    List (Nat × Str) :=
  if isTrack doc then
    (tabtorclfield.filter fun tag => tag.1 = tb).flatMap fun tag =>
      (tagValues doc tag.2).map fun value => (docidx, value)
  else []

/-- A document which the walk gets over: a track with a folder, and with numbers which sqlite can
hold, whose tags have tables. -/
def Admissible (env : Env) (stand : Str → Prop) (tracks : Prop) (tabtorclfield : List (Str × Str))
    (doc : Doc) : Prop :=
  isTrack doc = true → usableKey env doc ≠ none ∧ fitsInteger (tracknofordoc doc) = true ∧ tracks ∧
    ∀ tag ∈ tabtorclfield, tagValues doc tag.2 = [] ∨ stand tag.1

section Values

variable {stand : Str → Prop} {pairs : Str → List (Nat × Str)} {db : Db}

theorem rowsOf_eq {tb : Str} {pairs : List (Nat × Str)} (holds : Holds db tb pairs) (docidx : Nat) :
    rowsOf db tb docidx = (pairs.filter fun pair => pair.1 = docidx).map fun pair => some pair.2 := by
  obtain ⟨values, rows, has_values, has_rows, same⟩ := holds
  unfold rowsOf
  rw [has_values, has_rows, Option.getD_some, Option.getD_some]
  have filtered := congrArg (fun all => (all.filter fun row => row.1 = docidx).map Prod.snd) same
  simpa only [List.filter_map, List.map_map, Function.comp_def] using filtered

/-- More values do not change the rows. -/
theorem rows_append {values : List Str} {rows : List (Nat × Nat)} {pairs : List (Nat × Str)}
    (same : rows.map (fun row => (row.1, values[row.2 - 1]?)) =
      pairs.map fun pair => (pair.1, some pair.2)) (more : List Str) :
    rows.map (fun row => (row.1, (values ++ more)[row.2 - 1]?)) =
      pairs.map fun pair => (pair.1, some pair.2) := by
  rw [← same]
  refine List.map_congr_left fun row member => ?_
  have inside : (row.1, values[row.2 - 1]?) ∈ pairs.map fun pair => (pair.1, some pair.2) := by
    rw [← same]
    exact List.mem_map_of_mem (f := fun row : Nat × Nat => (row.1, values[row.2 - 1]?)) member
  obtain ⟨pair, -, found⟩ := List.mem_map.mp inside
  rw [Prod.mk.injEq] at found
  obtain ⟨place, -⟩ := List.getElem?_eq_some_iff.mp found.2.symm
  rw [List.getElem?_append_left place]

/-- A value which is inserted without a row. -/
theorem Walked.auxtableinsert (walked : Walked stand pairs db) {tb : Str}
    (there : db.values tb ≠ none) (value : Str) :
    ∃ db' rowid values', Uprcl.auxtableinsert db tb value = some (db', rowid) ∧
      Walked stand pairs db' ∧ db'.values tb = some values' ∧ RowAt values' value rowid ∧
      db'.junctions = db.junctions ∧ db'.tracks = db.tracks := by
  obtain ⟨values, has_values⟩ := Option.ne_none_iff_exists'.mp there
  obtain ⟨⟨db', rowid⟩, inserted⟩ : ∃ made, Uprcl.auxtableinsert db tb value = some made := by
    unfold Uprcl.auxtableinsert
    rw [has_values]
    exact ⟨_, rfl⟩
  obtain ⟨_, values', same, at_id, grown, rfl⟩ := auxtableinsert_spec inserted
  rw [has_values, Option.some.injEq] at same
  subst same
  refine ⟨_, rowid, values', inserted, ⟨fun other stands => ?_, fun other lost => ?_, ?_, walked.albums⟩,
    Function.update_self .., at_id, rfl, rfl⟩
  · obtain ⟨old, rows, has_old, has_rows, kept⟩ := walked.holds other stands
    by_cases same : other = tb
    · subst same
      rw [has_values, Option.some.injEq] at has_old
      subst has_old
      refine ⟨values', rows, Function.update_self .., has_rows, ?_⟩
      rw [grown]
      split
      · exact kept
      · exact rows_append kept [value]
    · exact ⟨old, rows, (Function.update_of_ne same ..).trans has_old, has_rows, kept⟩
  · refine (walked.gone other lost).imp id fun none_there => ?_
    have same : other ≠ tb := by
      rintro rfl
      exact there none_there.1
    exact ⟨(Function.update_of_ne same ..).trans none_there.1, none_there.2⟩
  · by_cases same : "artist".toList = tb
    · dsimp only
      rw [same, Function.update_self]
      exact nofun
    · dsimp only
      rw [Function.update_of_ne same]
      exact walked.artist

/-- The values with some more of them for one table. -/
def also (pairs : Str → List (Nat × Str)) (tb : Str) (more : List (Nat × Str)) :
    Str → List (Nat × Str) := Function.update pairs tb (pairs tb ++ more)

theorem also_nil (tb : Str) : also pairs tb [] = pairs := by
  unfold also
  rw [List.append_nil, Function.update_eq_self]

theorem also_also (tb : Str) (more later : List (Nat × Str)) :
    also (also pairs tb more) tb later = also pairs tb (more ++ later) := by
  unfold also
  rw [Function.update_self, Function.update_idem, List.append_assoc]

theorem Walked.insertValue (walked : Walked stand pairs db) {tb : Str} (stands : stand tb)
    (docidx : Nat) (value : Str) :
    ∃ db' rowid, Uprcl.insertValue docidx tb db value = some (db', rowid) ∧
      Walked stand (also pairs tb [(docidx, value)]) db' ∧ db'.tracks = db.tracks := by
  obtain ⟨_, _, has_values, _, _⟩ := walked.holds tb stands
  obtain ⟨db₁, rowid, values', inserted, walked₁, has_values', at_id, junctions, tracks⟩ :=
    walked.auxtableinsert (has_values ▸ Option.some_ne_none _) value
  obtain ⟨values, rows, same_values, has_rows, kept⟩ := walked₁.holds tb stands
  rw [has_values', Option.some.injEq] at same_values
  subst same_values
  have made : Uprcl.insertValue docidx tb db value =
      some ({ db₁ with
        junctions :=
          Function.update db₁.junctions (junctb tb) (some (rows ++ [(docidx, rowid)])) }, rowid) := by
    unfold Uprcl.insertValue
    rw [inserted]
    simp only [bind, Option.bind_some, has_rows]
    rfl
  refine ⟨_, rowid, made, ⟨fun other stands' => ?_, fun other lost => ?_, walked₁.artist,
    walked₁.albums⟩, tracks⟩
  · by_cases same : other = tb
    · subst same
      obtain ⟨i, rfl, there⟩ := at_id
      refine ⟨values', rows ++ [(docidx, i + 1)], has_values', Function.update_self .., ?_⟩
      unfold also
      rw [Function.update_self, List.map_append, List.map_append, kept]
      simp [there]
    · obtain ⟨old, rows', has_old, has_rows', kept'⟩ := walked₁.holds other stands'
      refine ⟨old, rows', has_old, ?_, ?_⟩
      · exact (Function.update_of_ne (fun inj => same (junctb_inj.mp inj)) ..).trans has_rows'
      · unfold also
        rw [Function.update_of_ne same]
        exact kept'
  · have differ : junctb other ≠ junctb tb := by
      intro inj
      rw [junctb_inj] at inj
      exact lost (inj ▸ stands)
    exact (walked₁.gone other lost).imp (Function.update_of_ne differ ..).trans
      (And.imp_right (Function.update_of_ne differ ..).trans)

theorem Walked.insertValue_none (walked : Walked stand pairs db) {tb : Str} (lost : ¬ stand tb)
    (docidx : Nat) (value : Str) : Uprcl.insertValue docidx tb db value = none := by
  rw [← Option.not_isSome_iff_eq_none, Option.isSome_iff_exists]
  rintro ⟨⟨db', rowid⟩, inserted⟩
  obtain ⟨values, values', rows, has_values, -, -, has_rows, -⟩ := insertValue_spec inserted
  rcases walked.gone tb lost with none_there | ⟨none_there, -⟩
  · rw [has_rows] at none_there
    cases none_there
  · rw [has_values] at none_there
    cases none_there

/-- The values of one tag of a document. -/
theorem Walked.insertValues (walked : Walked stand pairs db) {tb : Str} (docidx : Nat)
    (texts : List Str) (allowed : texts = [] ∨ stand tb) :
    ∃ db' rowids, Uprcl.insertValues docidx tb texts db = some (db', rowids) ∧
      Walked stand (also pairs tb (texts.map fun value => (docidx, value))) db' ∧
      db'.tracks = db.tracks := by
  induction texts generalizing db pairs with
  | nil => exact ⟨db, [], rfl, (also_nil tb).symm ▸ walked, rfl⟩
  | cons value rest ih =>
      have stands : stand tb := allowed.resolve_left (List.cons_ne_nil _ _)
      obtain ⟨db₁, rowid, first, walked₁, tracks₁⟩ := walked.insertValue stands docidx value
      obtain ⟨db₂, rowids, later, walked₂, tracks₂⟩ := ih walked₁ (.inr stands)
      refine ⟨db₂, rowid :: rowids, ?_, ?_, tracks₂.trans tracks₁⟩
      · unfold Uprcl.insertValues
        rw [first]
        simp only [bind, Option.bind_some, later]
        rfl
      · rw [also_also] at walked₂
        exact walked₂

theorem Walked.insertTag (walked : Walked stand pairs db) {docidx album_id : Nat} {doc : Doc}
    {tag : Str × Str} (allowed : tagValues doc tag.2 = [] ∨ stand tag.1) :
    ∃ db', Uprcl.insertTag docidx album_id doc db tag = some db' ∧
      Walked stand (also pairs tag.1 ((tagValues doc tag.2).map fun value => (docidx, value))) db' ∧
      db'.tracks = db.tracks := by
  obtain ⟨db₁, rowids, inserted, walked₁, tracks⟩ :=
    walked.insertValues docidx (tagValues doc tag.2) allowed
  unfold Uprcl.insertTag
  rw [inserted]
  simp only [bind, Option.bind_some]
  split
  · refine ⟨_, rfl, ⟨walked₁.holds, walked₁.gone, walked₁.artist, ?_⟩, tracks⟩
    intro gone
    exact walked₁.albums (Option.map_eq_none_iff.mp gone)
  · exact ⟨db₁, rfl, walked₁, tracks⟩

theorem Walked.insertTag_none (walked : Walked stand pairs db) {docidx album_id : Nat} {doc : Doc}
    {tag : Str × Str} (some_values : tagValues doc tag.2 ≠ []) (lost : ¬ stand tag.1) :
    Uprcl.insertTag docidx album_id doc db tag = none := by
  obtain ⟨value, rest, same⟩ := List.exists_cons_of_ne_nil some_values
  unfold Uprcl.insertTag
  rw [same, Uprcl.insertValues, walked.insertValue_none lost]
  rfl

/-- The tags of a document, one after the other. -/
theorem Walked.insertTags (walked : Walked stand pairs db) (docidx album_id : Nat) {doc : Doc}
    (tags : List (Str × Str)) (allowed : ∀ tag ∈ tags, tagValues doc tag.2 = [] ∨ stand tag.1) :
    ∃ db', tags.foldlM (Uprcl.insertTag docidx album_id doc) db = some db' ∧
      Walked stand (fun tb => pairs tb ++ (tags.filter fun tag => tag.1 = tb).flatMap fun tag =>
        (tagValues doc tag.2).map fun value => (docidx, value)) db' ∧
      db'.tracks = db.tracks := by
  induction tags generalizing db pairs with
  | nil => exact ⟨db, rfl, by simpa using walked, rfl⟩
  | cons tag rest ih =>
      obtain ⟨db₁, first, walked₁, tracks₁⟩ := walked.insertTag (allowed tag List.mem_cons_self)
      obtain ⟨db₂, later, walked₂, tracks₂⟩ :=
        ih walked₁ fun other member => allowed other (List.mem_cons_of_mem _ member)
      refine ⟨db₂, ?_, ?_, tracks₂.trans tracks₁⟩
      · rw [List.foldlM_cons, first]
        exact later
      · convert walked₂ using 2 with tb
        by_cases same : tag.1 = tb
        · subst same
          simp [also]
        · simp [also, same, Function.update_of_ne (Ne.symm same)]

theorem Walked.insertTags_none (walked : Walked stand pairs db) {docidx album_id : Nat} {doc : Doc}
    (tags : List (Str × Str)) (lost : ∃ tag ∈ tags, tagValues doc tag.2 ≠ [] ∧ ¬ stand tag.1) :
    tags.foldlM (Uprcl.insertTag docidx album_id doc) db = none := by
  induction tags generalizing db pairs with
  | nil =>
      obtain ⟨_, member, _⟩ := lost
      cases member
  | cons tag rest ih =>
      rw [List.foldlM_cons]
      by_cases allowed : tagValues doc tag.2 = [] ∨ stand tag.1
      · obtain ⟨db₁, first, walked₁, -⟩ := walked.insertTag allowed
        rw [first]
        obtain ⟨other, member, bad⟩ := lost
        refine ih walked₁ ⟨other, (List.mem_cons.mp member).resolve_left ?_, bad⟩
        rintro rfl
        exact allowed.elim bad.1 bad.2
      · rw [not_or] at allowed
        rw [walked.insertTag_none allowed.1 allowed.2]
        rfl

end Values

section Documents

variable {env : Env} {stand : Str → Prop} {pairs : Str → List (Nat × Str)} {db : Db}

theorem Walked.albumArtist (walked : Walked stand pairs db) (doc : Doc) :
    ∃ db' artist_id, Uprcl.albumArtist db doc = some (db', artist_id) ∧ Walked stand pairs db' ∧
      db'.tracks = db.tracks := by
  unfold Uprcl.albumArtist
  split
  · exact ⟨db, none, rfl, walked, rfl⟩
  · obtain ⟨db', rowid, _, inserted, walked', -, -, -, tracks⟩ :=
      walked.auxtableinsert walked.artist (doc.get "albumartist")
    rw [inserted]
    exact ⟨db', some rowid, rfl, walked', tracks⟩

theorem Walked.maybecreatealbum (walked : Walked stand pairs db) {doc : Doc}
    (usable : usableKey env doc ≠ none) :
    ∃ db' album_id, Uprcl.maybecreatealbum env db doc = some (db', album_id) ∧
      Walked stand pairs db' ∧ db'.tracks = db.tracks := by
  obtain ⟨key, found⟩ := Option.ne_none_iff_exists'.mp usable
  obtain ⟨found, fits⟩ := Option.filter_eq_some_iff.mp found
  obtain ⟨db₁, artist_id, artist, walked₁, tracks⟩ := walked.albumArtist doc
  obtain ⟨albums, has_albums⟩ := Option.ne_none_iff_exists'.mp walked₁.albums
  unfold Uprcl.maybecreatealbum
  simp only [found, artist, has_albums, bind, Option.bind_some, fits, Bool.true_eq_false, if_false]
  split
  · exact ⟨db₁, _, rfl, walked₁, tracks⟩
  · exact ⟨_, _, rfl, ⟨walked₁.holds, walked₁.gone, walked₁.artist, Option.some_ne_none _⟩, tracks⟩

theorem maybecreatealbum_none {doc : Doc} (unusable : usableKey env doc = none) (db : Db) :
    maybecreatealbum env db doc = none := by
  unfold usableKey at unusable
  unfold maybecreatealbum
  cases found : albumKey env doc with
  | none => rfl
  | some key =>
      rw [found, Option.filter_some] at unusable
      simp only [bind, Option.bind_some]
      cases albumArtist db doc with
      | none => rfl
      | some made =>
          split at unusable
          · cases unusable
          · rename_i unfit
            simp only [Option.bind_some, Bool.eq_false_iff.mpr unfit, if_true]

/-- One document, which is admissible. -/
theorem Walked.addDoc (walked : Walked stand pairs db) {tags : Tags} {doc : Doc} (docidx : Nat)
    (admissible : Admissible env stand (db.tracks ≠ none) tags.tabtorclfield doc) :
    ∃ db', Uprcl.addDoc env tags db doc docidx = some db' ∧
      Walked stand (fun tb => pairs tb ++ docPairs tags.tabtorclfield docidx doc tb) db' ∧
      (db'.tracks = none ↔ db.tracks = none) ∧
      ∀ row ∈ db'.tracks.getD [], row ∈ db.tracks.getD [] ∨ row.docidx = docidx ∧ isTrack doc := by
  unfold Uprcl.addDoc docPairs
  by_cases track : isTrack doc = true
  · obtain ⟨usable, fits, some_tracks, allowed⟩ := admissible track
    obtain ⟨db₁, album_id, created, walked₁, tracks₁⟩ := walked.maybecreatealbum usable
    obtain ⟨db₂, inserted, walked₂, tracks₂⟩ := walked₁.insertTags docidx
      album_id tags.tabtorclfield allowed
    obtain ⟨tracks, has_tracks⟩ := Option.ne_none_iff_exists'.mp some_tracks
    have has_tracks₂ : db₂.tracks = some tracks := tracks₂.trans (tracks₁.trans has_tracks)
    simp only [track, if_true, created, inserted, bind, Option.bind_some, fits, Bool.true_eq_false,
      if_false, has_tracks₂]
    refine ⟨_, rfl, ⟨walked₂.holds, walked₂.gone, walked₂.artist, walked₂.albums⟩, ?_, ?_⟩
    · simp [has_tracks]
    · intro row member
      rw [has_tracks]
      rcases List.mem_append.mp member with old | new
      · exact .inl old
      · rw [List.mem_singleton.mp new]
        exact .inr ⟨rfl, trivial⟩
  · rw [if_neg track]
    refine ⟨db, rfl, ?_, Iff.rfl, fun row member => .inl member⟩
    simpa only [track, if_false, List.append_nil, Bool.false_eq_true] using walked

theorem Walked.addDoc_none (walked : Walked stand pairs db) {tags : Tags} {doc : Doc} (docidx : Nat)
    (inadmissible : ¬ Admissible env stand (db.tracks ≠ none) tags.tabtorclfield doc) :
    Uprcl.addDoc env tags db doc docidx = none := by
  unfold Admissible at inadmissible
  rw [Classical.not_imp] at inadmissible
  obtain ⟨track, lacking⟩ := inadmissible
  unfold Uprcl.addDoc
  rw [if_pos track]
  by_cases usable : usableKey env doc ≠ none
  · obtain ⟨db₁, album_id, created, walked₁, tracks₁⟩ := walked.maybecreatealbum usable
    simp only [created, bind, Option.bind_some]
    by_cases allowed : ∀ tag ∈ tags.tabtorclfield, tagValues doc tag.2 = [] ∨ stand tag.1
    · obtain ⟨db₂, inserted, -, tracks₂⟩ := walked₁.insertTags docidx
        album_id tags.tabtorclfield allowed
      simp only [inserted, Option.bind_some]
      split
      · rfl
      · rename_i fits
        rw [Bool.not_eq_false] at fits
        have gone : db.tracks = none := by
          by_contra some_tracks
          exact lacking ⟨usable, fits, some_tracks, allowed⟩
        rw [tracks₂, tracks₁, gone]
        rfl
    · push Not at allowed
      rw [walked₁.insertTags_none tags.tabtorclfield allowed]
      rfl
  · rw [not_not] at usable
    rw [maybecreatealbum_none usable]
    rfl

/-- The values of all the documents for the table of a tag. -/
def docsPairs (tabtorclfield : List (Str × Str)) : Nat → List Doc → Str → List (Nat × Str)
  | _, [], _ => []
  | docidx, doc :: rest, tb =>
      docPairs tabtorclfield docidx doc tb ++ docsPairs tabtorclfield (docidx + 1) rest tb

theorem Walked.addDocs (walked : Walked stand pairs db) {tags : Tags} (docs : List Doc)
    (docidx : Nat)
    (admissible : ∀ doc ∈ docs, Admissible env stand (db.tracks ≠ none) tags.tabtorclfield doc) :
    ∃ db', Uprcl.addDocs env tags docs docidx db = some db' ∧
      Walked stand (fun tb => pairs tb ++ docsPairs tags.tabtorclfield docidx docs tb) db' ∧
      ∀ row ∈ db'.tracks.getD [], row ∈ db.tracks.getD [] ∨
        ∃ (i : Nat) (doc : Doc), docs[i]? = some doc ∧ isTrack doc ∧ row.docidx = docidx + i := by
  induction docs generalizing db pairs docidx with
  | nil =>
      refine ⟨db, rfl, ?_, fun row member => .inl member⟩
      simpa only [docsPairs, List.append_nil] using walked
  | cons doc rest ih =>
      obtain ⟨db₁, first, walked₁, same, tracks₁⟩ :=
        walked.addDoc docidx (admissible doc List.mem_cons_self)
      obtain ⟨db₂, later, walked₂, tracks₂⟩ := ih walked₁ (docidx + 1) fun other member => by
        rw [ne_eq, same]
        exact admissible other (List.mem_cons_of_mem _ member)
      refine ⟨db₂, ?_, ?_, fun row member => ?_⟩
      · unfold Uprcl.addDocs
        rw [first]
        exact later
      · simpa only [docsPairs, List.append_assoc] using walked₂
      · rcases tracks₂ row member with old | ⟨i, other, there, track, place⟩
        · rcases tracks₁ row old with old | ⟨place, track⟩
          · exact .inl old
          · exact .inr ⟨0, doc, rfl, track, place⟩
        · exact .inr ⟨i + 1, other, there, track, by omega⟩

theorem Walked.addDocs_none (walked : Walked stand pairs db) {tags : Tags} (docs : List Doc)
    (docidx : Nat)
    (inadmissible : ∃ doc ∈ docs,
      ¬ Admissible env stand (db.tracks ≠ none) tags.tabtorclfield doc) :
    Uprcl.addDocs env tags docs docidx db = none := by
  induction docs generalizing db pairs docidx with
  | nil =>
      obtain ⟨_, member, _⟩ := inadmissible
      cases member
  | cons doc rest ih =>
      unfold Uprcl.addDocs
      by_cases admissible : Admissible env stand (db.tracks ≠ none) tags.tabtorclfield doc
      · obtain ⟨db₁, first, walked₁, same, -⟩ := walked.addDoc docidx admissible
        rw [first]
        obtain ⟨other, member, bad⟩ := inadmissible
        refine ih walked₁ (docidx + 1) ⟨other, (List.mem_cons.mp member).resolve_left ?_, ?_⟩
        · rintro rfl
          exact bad admissible
        · rwa [ne_eq, same]
      · rw [walked.addDoc_none docidx admissible]
        rfl

theorem fst_docPairs {tabtorclfield : List (Str × Str)} {docidx : Nat} {doc : Doc} {tb : Str}
    {pair : Nat × Str} (member : pair ∈ docPairs tabtorclfield docidx doc tb) :
    pair.1 = docidx := by
  unfold docPairs at member
  split at member
  · obtain ⟨tag, -, inside⟩ := List.mem_flatMap.mp member
    obtain ⟨value, -, rfl⟩ := List.mem_map.mp inside
    rfl
  · cases member

theorem filter_docPairs (tabtorclfield : List (Str × Str)) (docidx other : Nat) (doc : Doc)
    (tb : Str) :
    (docPairs tabtorclfield docidx doc tb).filter (fun pair => pair.1 = other) =
      if docidx = other then docPairs tabtorclfield docidx doc tb else [] := by
  split
  · rename_i same
    rw [List.filter_eq_self]
    intro pair member
    simpa [same] using fst_docPairs member
  · rename_i differ
    rw [List.filter_eq_nil_iff]
    intro pair member
    simpa [fst_docPairs member] using differ

theorem filter_docsPairs_before (tabtorclfield : List (Str × Str)) {docidx other : Nat}
    (before : other < docidx) (docs : List Doc) (tb : Str) :
    (docsPairs tabtorclfield docidx docs tb).filter (fun pair => pair.1 = other) = [] := by
  induction docs generalizing docidx with
  | nil => rfl
  | cons doc rest ih =>
      rw [docsPairs, List.filter_append, filter_docPairs, if_neg (by omega), ih (by omega)]
      rfl

/-- The values of one document among those of all of them. -/
theorem filter_docsPairs (tabtorclfield : List (Str × Str)) {docs : List Doc} {i : Nat} {doc : Doc}
    (there : docs[i]? = some doc) (docidx : Nat) (tb : Str) :
    (docsPairs tabtorclfield docidx docs tb).filter (fun pair => pair.1 = docidx + i) =
      docPairs tabtorclfield (docidx + i) doc tb := by
  induction docs generalizing i docidx with
  | nil => cases there
  | cons first rest ih =>
      rw [docsPairs, List.filter_append, filter_docPairs]
      cases i with
      | zero =>
          cases there
          rw [Nat.add_zero, if_pos rfl, filter_docsPairs_before _ (by omega), List.append_nil]
      | succ i =>
          have later := ih there (docidx + 1)
          rw [if_neg (by omega), List.nil_append, ← Nat.add_assoc, Nat.add_right_comm]
          exact later

end Documents

section Covers

variable {env : Env} {rcldocs : List Doc}

theorem docfolder_of_usable {doc : Doc} (usable : usableKey env doc ≠ none) :
    docfolder env doc ≠ none := by
  intro missing
  apply usable
  unfold usableKey albumKey
  rw [missing]
  rfl

/-- The row of a document which has a folder. -/
def HasFolder (env : Env) (rcldocs : List Doc) (track : Track) : Prop :=
  ∃ doc, rcldocs[track.docidx]? = some doc ∧ docfolder env doc ≠ none

theorem albumCover_ne_none (albtitle : Str) (tracks : List Track)
    (folders : ∀ track ∈ tracks, HasFolder env rcldocs track) :
    albumCover env rcldocs albtitle tracks ≠ none := by
  induction tracks with
  | nil => exact nofun
  | cons track rest ih =>
      obtain ⟨doc, there, has_folder⟩ := folders track List.mem_cons_self
      have later := ih fun other member => folders other (List.mem_cons_of_mem _ member)
      obtain ⟨cover, art⟩ : ∃ cover, docarturi env doc true albtitle = some cover := by
        unfold docarturi
        dsimp only
        split
        · exact ⟨_, rfl⟩
        · obtain ⟨folder, found⟩ := Option.ne_none_iff_exists'.mp has_folder
          rw [found]
          exact ⟨_, rfl⟩
      unfold albumCover
      simp only [there, art, bind, Option.bind_some]
      cases cover with
      | none => exact later
      | some arturi => exact nofun

theorem setalbumcovers_ne_none {tracks : List Track} (albums : List Album)
    (folders : ∀ track ∈ tracks, HasFolder env rcldocs track) :
    setalbumcovers env rcldocs tracks albums ≠ none := by
  refine Option.ne_none_iff_exists'.mpr (MapM.exists_eq_some _ fun row _ missing => ?_)
  simp only [bind, Option.bind_eq_none_iff] at missing
  obtain ⟨cover, found⟩ := Option.ne_none_iff_exists'.mp
    (albumCover_ne_none row.albtitle ((tracks.filter fun track =>
        track.album_id = row.album_id).insertionSort fun first second => first.path ≤ second.path)
      fun track member => folders track
        (List.mem_of_mem_filter ((List.mem_insertionSort _).mp member)))
  exact absurd (missing cover found) nofun

end Covers

end Upmpdcli.Uprcl
