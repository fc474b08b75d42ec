import Upmpdcli.Cdplugins.Uprcl.TagsCreateComplete
import Upmpdcli.Cdplugins.Uprcl.TagsCreateMerge
import Upmpdcli.Lib.Fold
import Upmpdcli.Lib.MapM
import Upmpdcli.Lib.Text

set_option autoImplicit false

/- The tree of the tracks by their tags: the lists of tracks. -/
namespace Upmpdcli.Uprcl

section Compare

/-- Two texts in the order of their characters. -/
def compareText (a1 a2 : Str) : Int := if a1 < a2 then -1 else if a2 < a1 then 1 else 0

def compareInt (a1 a2 : Int) : Int := if a1 < a2 then -1 else if a2 < a1 then 1 else 0

/-- The first of the comparisons which decides. -/
def firstDecided : List Int → Int
  | [] => 0
  | ret :: rest => if ret = 0 then firstDecided rest else ret

def isct (e : Entry) : Bool := e.lookup "tp" = some "ct".toList

/-- `os.path.dirname` and `os.path.basename` of the address. -/
def uriDirname (e : Entry) : Str := PosixPath.dirname ((e.lookup "uri").getD [])

def uriBasename (e : Entry) : Str := PosixPath.basename ((e.lookup "uri").getD [])

/-- The track number, zero if there is none or if it is no number. -/
def sortNumber (e : Entry) : Int :=
  ((e.lookup "upnp:originalTrackNumber").bind Text.int).getD 0

/-- `_cmpentries_func`, for entries which have a type. -/
def cmpentries (lower : Str → Str) (e1 e2 : Entry) : Int :=
  if isct e1 ∧ ¬ isct e2 then -1
  else if ¬ isct e1 ∧ isct e2 then 1
  else if isct e1 ∧ isct e2 then
    compareText (lower ((e1.lookup "tt").getD [])) (lower ((e2.lookup "tt").getD []))
  else
    firstDecided
      [compareText ((e1.lookup "upnp:album").getD []) ((e2.lookup "upnp:album").getD []),
        compareText (uriDirname e1) (uriDirname e2),
        compareInt (sortNumber e1) (sortNumber e2),
        compareText (uriBasename e1) (uriBasename e2)]

/-- `_cmpitems_func`. -/
def cmpitems (e1 e2 : Entry) : Int :=
  firstDecided
    [compareText ((e1.lookup "tt").getD []) ((e2.lookup "tt").getD []),
      compareText ((e1.lookup "upnp:album").getD []) ((e2.lookup "upnp:album").getD [])]

/-- `sorted` with `cmpentries`. An entry without a type, which has no fields at all, raises when
it is compared. -/
def sortEntries (lower : Str → Str) (entries : List Entry) : Option (List Entry) :=
  if entries.length ≤ 1 ∨ entries.all fun e => (e.lookup "tp").isSome then
    some (entries.mergeSort fun e1 e2 => cmpentries lower e1 e2 ≤ 0)
  else none

/-- `sorted` with `cmpitems`. -/
def sortItems (entries : List Entry) : Option (List Entry) :=
  some (entries.mergeSort fun e1 e2 => cmpitems e1 e2 ≤ 0)

end Compare

section Listable

/-- A track of a document whose folder is known. -/
def Listable (env : Env) (rcldocs : List Doc) (row : Track) : Prop :=
  ∃ doc, rcldocs[row.docidx]? = some doc ∧ isTrack doc ∧ (docfolder env doc).isSome

theorem insertValues_tracks {docidx : Nat} {tb : Str} {values : List Str} {db db' : Db}
    {rowids : List Nat} (inserted : insertValues docidx tb values db = some (db', rowids)) :
    db'.tracks = db.tracks := by
  induction values generalizing db rowids with
  | nil =>
      cases inserted
      rfl
  | cons value rest ih =>
      simp only [insertValues, bind, Option.bind_eq_some_iff] at inserted
      obtain ⟨⟨between, rowid⟩, first, ⟨last, behind⟩, later, same⟩ := inserted
      cases same
      obtain ⟨_, _, _, -, -, -, -, rfl⟩ := insertValue_spec first
      exact (ih later).trans rfl

theorem insertTag_tracks {docidx album_id : Nat} {doc : Doc} {tag : Str × Str} {db db' : Db}
    (inserted : insertTag docidx album_id doc db tag = some db') : db'.tracks = db.tracks := by
  simp only [insertTag, bind, Option.bind_eq_some_iff] at inserted
  obtain ⟨⟨between, rowids⟩, values, last⟩ := inserted
  have kept := insertValues_tracks values
  dsimp only at last
  split at last
  · cases last
    exact kept
  · cases last
    exact kept

theorem maybecreatealbum_tracks {env : Env} {doc : Doc} {db db' : Db} {album_id : Nat}
    (created : maybecreatealbum env db doc = some (db', album_id)) :
    db'.tracks = db.tracks ∧ (docfolder env doc).isSome := by
  simp only [maybecreatealbum, bind, Option.bind_eq_some_iff] at created
  obtain ⟨key, found, ⟨between, artist_id⟩, artist, last⟩ := created
  have folder : (docfolder env doc).isSome := by
    obtain ⟨path, has_path, -⟩ := Option.map_eq_some_iff.mp found
    rw [has_path]
    rfl
  have kept : between.tracks = db.tracks := by
    unfold albumArtist at artist
    split at artist
    · cases artist
      rfl
    · obtain ⟨_, inserted, same⟩ := Option.map_eq_some_iff.mp artist
      cases same
      obtain ⟨_, _, -, -, -, same⟩ := auxtableinsert_spec inserted
      rw [same]
  simp only [Option.ite_none_left_eq_some, Option.bind_eq_some_iff] at last
  obtain ⟨-, albums, -, last⟩ := last
  split at last
  · cases last
    exact ⟨kept, folder⟩
  · cases last
    exact ⟨kept, folder⟩

theorem addDoc_tracks {env : Env} {tags : Tags} {doc : Doc} {docidx : Nat} {db db' : Db}
    (added : addDoc env tags db doc docidx = some db') :
    db'.tracks = db.tracks ∨ isTrack doc ∧ (docfolder env doc).isSome ∧
      ∃ tracks row, db.tracks = some tracks ∧ db'.tracks = some (tracks ++ [row]) ∧
        row.docidx = docidx := by
  unfold addDoc at added
  split at added
  · rename_i track
    simp only [bind, Option.bind_eq_some_iff] at added
    obtain ⟨⟨made, album_id⟩, created, tagged, inserted, last⟩ := added
    simp only [Option.ite_none_left_eq_some, Option.bind_eq_some_iff] at last
    obtain ⟨-, tracks, has_tracks, same⟩ := last
    cases same
    obtain ⟨kept, folder⟩ := maybecreatealbum_tracks created
    have unchanged : tagged.tracks = made.tracks :=
      Fold.foldlM_keeps (I := fun db => db.tracks = made.tracks)
        (fun _ _ _ before turn => (insertTag_tracks turn).trans before) rfl inserted
    refine .inr ⟨track, folder, tracks, _, ?_, rfl, rfl⟩
    rw [← kept, ← unchanged, has_tracks]
  · cases added
    exact .inl rfl

theorem addDocs_tracks {env : Env} {tags : Tags} {docs : List Doc} {docidx : Nat} {db db' : Db}
    (added : addDocs env tags docs docidx db = some db') {row : Track}
    (member : row ∈ db'.tracks.getD []) :
    row ∈ db.tracks.getD [] ∨ ∃ (i : Nat) (doc : Doc), docs[i]? = some doc ∧
      row.docidx = docidx + i ∧ isTrack doc ∧ (docfolder env doc).isSome := by
  induction docs generalizing docidx db with
  | nil =>
      cases added
      exact .inl member
  | cons doc rest ih =>
      obtain ⟨between, first, later⟩ := Option.bind_eq_some_iff.mp added
      rcases ih later with early | ⟨i, other, there, place, known⟩
      · rcases addDoc_tracks first with kept | ⟨track, folder, tracks, new, before, after, place⟩
        · rw [kept] at early
          exact .inl early
        · rw [after, Option.getD_some, List.mem_append, List.mem_singleton] at early
          rcases early with old | rfl
          · rw [before]
            exact .inl old
          · exact .inr ⟨0, doc, rfl, place, track, folder⟩
      · exact .inr ⟨i + 1, other, there, by omega, known⟩

end Listable

/-- The documents, the tables which were made of them, and what the browsing of them needs. An
album which is displayed is one of its own parts. -/
structure Tagged where
  env : Env
  -- `str.lower`
  lower : Str → Str
  rcldocs : List Doc
  albums : List Album
  distinct : (albums.map Album.album_id).Nodup
  displayed : ∀ row ∈ albums, row.albtdisc = none → row.albalb = some row.album_id
  tracks : List Track
  listable : ∀ row ∈ tracks, Listable env rcldocs row

section Tables

variable {env : Env} {conf : TagConf} {tables : List (Str × Str)} {rcldocs : List Doc}
  {tags : Tags} {db : Db}

/-- The tracks of the tables which are made of the documents can be listed. -/
theorem listable_of_recolltosql
    (made : recolltosql env conf tables rcldocs = some (tags, db)) {row : Track}
    (member : row ∈ db.tracks.getD []) : Listable env rcldocs row := by
  rw [recolltosql_created] at made
  split at made
  · simp only [buildFrom, bind, Option.bind_eq_some_iff] at made
    obtain ⟨⟨db₁, various⟩, inserted, db₂, added, albums, -, covered, -, same⟩ := made
    cases same
    rcases addDocs_tracks added member with old | ⟨i, doc, there, place, track, folder⟩
    · obtain ⟨_, _, -, -, -, kept⟩ := auxtableinsert_spec inserted
      have none_yet : db₁.tracks.getD [] = [] := by
        rw [kept]
        dsimp only
        rw [created_tracks]
        split <;> rfl
      rw [none_yet] at old
      cases old
    · rw [Nat.zero_add] at place
      exact ⟨doc, place ▸ there, track, folder⟩
  · cases made

theorem albums_of_recolltosql (made : recolltosql env conf tables rcldocs = some (tags, db)) :
    ((db.albums.getD []).map Album.album_id).Nodup ∧
      ∀ row ∈ db.albums.getD [], row.albtdisc = none → row.albalb = some row.album_id := by
  rw [recolltosql_eq] at made
  obtain ⟨passed, documents, same⟩ := Option.map_eq_some_iff.mp made
  cases same
  dsimp only
  cases had : passed.2.albums with
  | none => exact ⟨List.nodup_nil, fun _ member => nomatch member⟩
  | some albums =>
      have unmerged := unmerged_of_documentPass documents had
      obtain ⟨outcome, tops, s, done, merged⟩ := createmergedalbums_eq env unmerged
      rw [Option.map_some, Option.getD_some, merged]
      refine ⟨done.distinct_final, fun row member no_disc => ?_⟩
      rcases done.shapes unmerged member with ⟨-, own⟩ | ⟨has_disc, -⟩
      · exact own
      · exact absurd no_disc has_disc

/-- What is browsed when the tables have been made. -/
def Tagged.ofTables (lower : Str → Str)
    (made : recolltosql env conf tables rcldocs = some (tags, db)) : Tagged where
  env
  lower
  rcldocs
  albums := db.albums.getD []
  distinct := (albums_of_recolltosql made).1
  displayed := (albums_of_recolltosql made).2
  tracks := db.tracks.getD []
  listable _ member := listable_of_recolltosql made member

end Tables

/-- `_stmt_cnt_cache` and `_stmt_cnt_cachequeue`. -/
structure StmtCache where
  cache : List (Str × Nat) := []
  queue : List Str := []
deriving DecidableEq

/-- A statement with its values: its text, and the `docidx` which it selects, in the order in which
the table is gone through. -/
structure Stmt where
  text : Str
  rows : List Nat

/-- What `_trackentriesforstmt` returns: a list, or the triple for a part of it. -/
inductive Listing
  | all (entries : List Entry)
  | part (offset total : Nat) (entries : List Entry)

namespace Tagged

/-- The number of rows, from the cache if the text of the statement is there. -/
def stmt_total (cache : StmtCache) (stmt : Stmt) : Nat × StmtCache :=
  match cache.cache.lookup stmt.text with
  | some total => (total, cache)
  | none =>
      let total := stmt.rows.length
      let entries := Dict.set cache.cache stmt.text total
      let queue := cache.queue ++ [stmt.text]
      if 20 < queue.length then
        (total, { cache := entries.filter (some ·.1 ≠ queue.head?), queue := queue.tail })
      else (total, { cache := entries, queue })

/-- The rows with a `LIMIT` if the count is not zero, and with an `OFFSET` if that is not. There is
no offset without a limit, and both have to be numbers which sqlite can hold. -/
def execute (stmt : Stmt) (offset count : Nat) : Option (List Nat) :=
  if count = 0 then if offset = 0 then some stmt.rows else none
  else if fitsInteger count ∧ fitsInteger offset then some ((stmt.rows.drop offset).take count)
  else none

def trackEntry (t : Tagged) (pid : Str) (docidx : Nat) : Option Entry :=
  t.rcldocs[docidx]?.bind (rcldoctoentry t.env (pid ++ "$i".toList ++ Text.str docidx) pid)

theorem exists_trackEntry (t : Tagged) {row : Track} (member : row ∈ t.tracks) (pid : Str) :
    t.trackEntry pid row.docidx ≠ none := by
  obtain ⟨doc, there, track, folder⟩ := t.listable row member
  have art : docarturi t.env doc false ≠ none := by
    unfold docarturi
    dsimp only
    split
    · exact Option.some_ne_none _
    · obtain ⟨path, found⟩ := Option.isSome_iff_exists.mp folder
      rw [found]
      exact Option.some_ne_none _
  unfold trackEntry
  rw [there, Option.bind_some, rcldoctoentry]
  split
  · exact Option.some_ne_none _
  · unfold fillEntry withArt
    split
    · exact Option.some_ne_none _
    · obtain ⟨arturi, found⟩ := Option.ne_none_iff_exists'.mp art
      rw [found]
      exact Option.some_ne_none _

def trackentriesforstmt (t : Tagged) (cache : StmtCache) (stmt : Stmt) (pid : Str)
    (offset count : Nat) (sorted : List Entry → Option (List Entry)) : StmtCache × Option Listing :=
  let (total, cache) := if offset ≠ 0 ∨ count ≠ 0 then stmt_total cache stmt else (0, cache)
  let (offset, count) := if total < 1000 then (0, 0) else (offset, count)
  (cache, do
    let rows ← execute stmt offset count
    let entries ← rows.mapM (t.trackEntry pid)
    if offset ≠ 0 ∨ count ≠ 0 then return .part offset total entries
    else return .all (← sorted entries))

end Tagged

/-- `LIKE`, which ignores the case of ASCII letters. -/
def like : Str → Str → Bool
  | [], text => text.isEmpty
  | c :: pattern, text =>
      if c = '%' then text.tails.any (like pattern)
      else
        match text with
        | [] => false
        | d :: text => (c = '_' ∨ c.toLower = d.toLower) && like pattern text

namespace Tagged

/-- The statement of the list of all the tracks, or of those below a folder. -/
def itemsStmt (t : Tagged) (folder : Str) : Stmt :=
  if folder = [] then
    { text := "SELECT docidx FROM tracks ".toList, rows := t.tracks.map Track.docidx }
  else
    { text := "SELECT docidx FROM tracks WHERE tracks.path LIKE ? ".toList
      rows := (t.tracks.filter fun row => like (folder ++ ['%']) row.path).map Track.docidx }

end Tagged

/-- What `browse` answers. -/
structure Reply where
  entries : List Entry
  offset : Nat
  total : Int

/-- The end of `browse`. -/
def Listing.reply : Listing → Reply
  | .all entries => { entries, offset := 0, total := -1 }
  | .part offset total entries => { entries, offset, total }

namespace Tagged

/-- A browse of the list of tracks: the `items` branch of `_dobrowse`. -/
def browseItems (t : Tagged) (cache : StmtCache) (folder pid : Str) (offset count : Nat) :
    StmtCache × Option Reply :=
  let (cache, entries) :=
    t.trackentriesforstmt cache (t.itemsStmt folder) pid offset count sortItems
  (cache, entries.map Listing.reply)

/-- `ORDER BY albtdisc`: what has no number comes first. -/
def discBefore (row row' : Album) : Bool :=
  match row.albtdisc, row'.albtdisc with
  | none, _ => true
  | some _, none => false
  | some disc, some disc' => disc ≤ disc'

/-- The ids of the component discs of an album. -/
def albid2rawalbidssorted (t : Tagged) (albid : Nat) : List Nat :=
  let rows := (t.albums.filter fun row => row.albalb = some albid).mergeSort discBefore
  if rows.length ≤ 1 then [albid] else rows.map Album.album_id

/-- The tracks of one disc. -/
def albumStmt (t : Tagged) (albid : Nat) : Stmt where
  text := "SELECT docidx FROM tracks\n            WHERE album_id = ? ORDER BY trackno".toList
  rows := ((t.tracks.filter fun row => row.album_id = albid).mergeSort fun row row' =>
    row.trackno ≤ row'.trackno).map Track.docidx

/-- Without an offset and a count the cache is not used, and the list is whole. -/
def discEntries (t : Tagged) (pid : Str) (albid : Nat) : Option (List Entry) :=
  match (t.trackentriesforstmt {} (t.albumStmt albid) pid 0 0 (sortEntries t.lower)).2 with
  | some (.all entries) => some entries
  | _ => none

end Tagged

def numberKey : String := "upnp:originalTrackNumber"

/-- The number of a track, one if it has none. There is no result when it is no number. -/
def trackNumber (track : Entry) : Option Int :=
  match track.lookup numberKey with
  | some text => Text.int text
  | none => some 1

/-- The number behind another one, which counts only if it is not zero. -/
def nextNumber (tno : Option Int) (tn : Int) : Int :=
  match tno with
  | none => tn
  | some tno => if tno ≠ 0 then if tn ≤ tno then tno + 1 else tn else tn

/-- The loop of `_trackentriesforalbum`. -/
def renumber (tno : Option Int) : List Entry → Option (List Entry)
  | [] => some []
  | track :: rest => do
      let tn ← trackNumber track
      let tno := nextNumber tno tn
      let rest ← renumber (some tno) rest
      return Dict.set track numberKey (Text.strInt tno) :: rest

def Tagged.trackentriesforalbum (t : Tagged) (albid : Nat) (pid : Str) : Option (List Entry) := do
  let discs ← (t.albid2rawalbidssorted albid).mapM (t.discEntries pid)
  renumber none discs.flatten

end Upmpdcli.Uprcl
