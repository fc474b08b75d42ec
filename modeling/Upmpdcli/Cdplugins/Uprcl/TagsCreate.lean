import Mathlib.Algebra.Group.Int.Defs
import Mathlib.Data.Char
import Mathlib.Data.List.Lex
import Mathlib.Data.List.Sort
import Upmpdcli.Cdplugins.Uprcl.Utils

set_option autoImplicit false

/- The database of the tracks: the albums they belong to, and the values of their tags. -/
namespace Upmpdcli.Uprcl

/-- A row of the `albums` table. `artists` holds the artists of one track after the other. -/
structure Album where
  album_id : Nat
  artist_id : Option Nat
  albtitle : Str
  albfolder : Str
  albdate : Str
  albarturi : Option Str := none
  albalb : Option Nat := none
  albtdisc : Option Int
  artists : List (List Nat) := []
deriving DecidableEq

/-- A row of the `tracks` table. -/
structure Track where
  docidx : Nat
  album_id : Nat
  trackno : Int
  path : Str
deriving DecidableEq

/-- The tables, by their names. The id of a value is its place in the table of its tag, from
one on. -/
structure Db where
  albums : Option (List Album)
  tracks : Option (List Track)
  values : Str → Option (List Str)
  junctions : Str → Option (List (Nat × Nat))

/-- `_junctb`. -/
def junctb (table : Str) : Str := "tracks_".toList ++ table ++ "s".toList

def Db.drop (db : Db) (name : Str) : Db where
  albums := if name = "albums".toList then none else db.albums
  tracks := if name = "tracks".toList then none else db.tracks
  values := Function.update db.values name none
  junctions := Function.update db.junctions name none

/-- `_createTagTables`. There is no result when the name is none for a table. -/
def createTagTables (accepts : Str → Bool) (db : Db) (tgnm : Str) : Option Db :=
  if accepts tgnm then
    let db := db.drop tgnm
    let db := { db with values := Function.update db.values tgnm (some []) }
    let db := db.drop (junctb tgnm)
    some { db with junctions := Function.update db.junctions (junctb tgnm) (some []) }
  else none

/-- `_alltagtotable`, as it is at first. -/
def alltagtotable : List (Str × Str) :=
  [("AlbumArtist", "albumartist"), ("All Artists", "allartists"), ("Artist", "artist"),
    ("Comment", "comment"), ("Composer", "composer"), ("Conductor", "conductor"),
    ("Date", "date"), ("Genre", "genre"), ("Group", "cgroup"), ("Label", "label"),
    ("Lyricist", "lyricist"), ("Orchestra", "orchestra"), ("Performer", "performer")].map
    fun tag => (tag.1.toList, tag.2.toList)

/-- `_createsqdb`. -/
def createsqdb (accepts : Str → Bool) (tables : List (Str × Str)) : Option Db :=
  (tables.map Prod.snd).foldlM (createTagTables accepts)
    { albums := some [], tracks := some [], values := fun _ => none, junctions := fun _ => none }

/-- What the configuration of the tags, and the machine, give: the `indexTags` with their
names for display, the `itemTags`, the small letters of a text and the names which a table can
have. -/
structure TagConf where
  indextags : List (Str × Str)
  itemtags : List Str
  lower : Str → Str
  accepts : Str → Bool

/-- The globals which `_prepareTags` sets. -/
structure Tags where
  tables : List (Str × Str)
  indextags : List Str
  tagdisplaytag : List (Str × Str)
  tagtotable : List (Str × Str)
  tabtorclfield : List (Str × Str)

/-- The tags of the tree, none if one of them is called `none`. -/
def shownTags (conf : TagConf) : List (Str × Str) :=
  let indextagsp :=
    if conf.indextags = [] then
      ["Artist", "Date", "Genre", "Composer"].map fun tag => (tag.toList, [])
    else conf.indextags
  if indextagsp.any fun tag => conf.lower tag.1 = "none".toList then [] else indextagsp

/-- `_coltorclfield`, where it changes something. -/
def rclfield (tb : Str) : Str := if tb = "allartists".toList then "artist".toList else tb

/-- The table of a tag, which is made when there is none. -/
def tableFor (conf : TagConf) (tables : List (Str × Str)) (db : Db) (nm : Str) :
    Option (List (Str × Str) × Db × Str) :=
  match tables.lookup nm with
  | some tb => some (tables, db, tb)
  | none =>
      let tb := conf.lower nm
      (createTagTables conf.accepts db tb).map fun db => (Dict.set tables nm tb, db, tb)

/-- The tables of these tags, one after the other. -/
def tablesFor (conf : TagConf) :
    List Str → List (Str × Str) → Db → Option (List (Str × Str) × Db × List Str)
  | [], tables, db => some (tables, db, [])
  | nm :: rest, tables, db => do
      let (tables, db, tb) ← tableFor conf tables db nm
      let (tables, db, tbs) ← tablesFor conf rest tables db
      return (tables, db, tb :: tbs)

/-- `_prepareTags`. -/
def prepareTags (conf : TagConf) (tables : List (Str × Str)) (db : Db) : Option (Tags × Db) := do
  let shown := shownTags conf
  let indextags := shown.map Prod.fst
  let (tables, db, indextbs) ← tablesFor conf indextags tables db
  let (tables, db, itemtbs) ← tablesFor conf conf.itemtags tables db
  let tagdisplaytag := shown.foldl
    (fun shown tag => Dict.set shown tag.1 (if tag.2 = [] then tag.1 else tag.2)) []
  let tagtotable := (indextags.zip indextbs).foldl
    (fun tables tag => Dict.set tables tag.1 tag.2) []
  let tabtorclfield := (indextbs ++ itemtbs).map fun tb => (tb, rclfield tb)
  return ({ tables, indextags, tagdisplaytag, tagtotable, tabtorclfield }, db)

/-- `_auxtableinsert`: the id of a value in the table of its tag. -/
def auxtableinsert (db : Db) (tb value : Str) : Option (Db × Nat) :=
  (db.values tb).map fun values =>
    if value ∈ values then (db, values.idxOf value + 1)
    else
      ({ db with values := Function.update db.values tb (some (values ++ [value])) },
        values.length + 1)

/-- What sqlite can hold as a number. -/
def fitsInteger (n : Int) : Bool := -2 ^ 63 ≤ n ∧ n < 2 ^ 63

/-- `_tracknofordoc`. -/
def tracknofordoc (doc : Doc) : Int :=
  (Text.int ((doc.get "tracknumber").takeWhile (· ≠ '/'))).getD 1

/-- The ids of the rows of a table count from one. -/
def RowAt {ρ : Type} (rows : List ρ) (row : ρ) (id : Nat) : Prop :=
  ∃ i, id = i + 1 ∧ rows[i]? = some row

theorem RowAt.mono {ρ : Type} {rows rows' : List ρ} {row : ρ} {id : Nat} (at_id : RowAt rows row id)
    (grown : rows <+: rows') : RowAt rows' row id := by
  obtain ⟨i, rfl, there⟩ := at_id
  obtain ⟨behind, rfl⟩ := grown
  exact ⟨i, rfl, by rw [List.getElem?_append_left (List.getElem?_eq_some_iff.mp there).1, there]⟩

theorem auxtableinsert_spec {db db' : Db} {tb value : Str} {rowid : Nat}
    (inserted : auxtableinsert db tb value = some (db', rowid)) :
    ∃ values values', db.values tb = some values ∧ RowAt values' value rowid ∧
      values' = (if value ∈ values then values else values ++ [value]) ∧
      db' = { db with values := Function.update db.values tb (some values') } := by
  unfold auxtableinsert at inserted
  cases has_values : db.values tb with
  | none => simp [has_values] at inserted
  | some values =>
      rw [has_values, Option.map_some, Option.some.injEq] at inserted
      by_cases known : value ∈ values
      · rw [if_pos known] at inserted
        cases inserted
        refine ⟨values, values, rfl, ⟨_, rfl, ?_⟩, (if_pos known).symm, ?_⟩
        · rw [List.getElem?_eq_getElem (List.idxOf_lt_length_of_mem known), List.getElem_idxOf]
        · rw [← has_values, Function.update_eq_self]
      · rw [if_neg known] at inserted
        cases inserted
        exact ⟨values, values ++ [value], rfl, ⟨_, rfl, by simp⟩, (if_neg known).symm, rfl⟩

section DiscNumbers

/-- Whether a character is this small letter when the case is ignored. -/
def sameLetter (letter c : Char) : Bool :=
  c = letter ∨ c.toLower = letter ∨ (letter = 'i' ∧ (c.toNat = 0x130 ∨ c.toNat = 0x131)) ∨
    (letter = 's' ∧ c.toNat = 0x17f)

/-- What is behind a word of small letters. -/
def behindWord : List Char → Str → Option Str
  | [], text => some text
  | letter :: word, c :: text => if sameLetter letter c then behindWord word text else none
  | _ :: _, [] => none

/-- The number at the beginning of a text, and what is behind it. -/
def leadingNumber (text : Str) : Option (Nat × Str) :=
  let digits := text.takeWhile Char.isDigit
  if digits = [] then none
  else some (Nat.ofDigitChars 10 digits 0, text.drop digits.length)

def skipSpaces (text : Str) : Str := text.dropWhile (· = ' ')

/-- Nothing but spaces up to the end, or to the newline there. -/
def atEnd (text : Str) : Bool := skipSpaces text = [] ∨ skipSpaces text = ['\n']

/-- `[disc N]` or `(disc N)`. -/
def bracketedDisc (opening closing : Char) (text : Str) : Option Nat := do
  let text ← if text.head? = some opening then some text.tail else none
  let text ← behindWord "disc ".toList text
  let (n, text) ← leadingNumber text
  if text.head? = some closing ∧ atEnd text.tail then some n else none

/-- ` disc N`. -/
def spacedDisc (text : Str) : Option Nat := do
  let text ← if text.head? = some ' ' then some (skipSpaces text) else none
  let text ← behindWord "disc".toList text
  let text ← if text.head? = some ' ' then some (skipSpaces text) else none
  let (n, text) ← leadingNumber text
  if atEnd text then some n else none

def discAt (text : Str) : Option Nat :=
  (bracketedDisc '[' ']' text).or ((bracketedDisc '(' ')' text).or (spacedDisc text))

/-- The longest beginning of the line, up to this length, with a disc number behind it. -/
def discBehind (text : Str) : Nat → Option (Str × Nat)
  | 0 => (discAt text).map fun n => ([], n)
  | k + 1 =>
      match discAt (text.drop (k + 1)) with
      | some n => some (text.take (k + 1), n)
      | none => discBehind text k

/-- `_albtitdnumexp.search`: the title before the disc number, and the number. -/
def albtitdnum : Str → Option (Str × Nat)
  | [] => discBehind [] 0
  | c :: text =>
      match discBehind (c :: text) ((c :: text).takeWhile (· ≠ '\n')).length with
      | some found => some found
      | none => albtitdnum text

/-- `_folderdnumexp.search`: the number behind the first `cd` or `disc` which has one. -/
def folderdnum : Str → Option Nat
  | [] => none
  | c :: text =>
      let number := fun word =>
        (behindWord word (c :: text)).bind fun rest => leadingNumber (skipSpaces rest)
      match (number "cd".toList).or (number "disc".toList) with
      | some (n, _) => some n
      | none => folderdnum text

end DiscNumbers

/-- A disc number which is not there, or zero. -/
def noDisc (discnum : Option Int) : Bool := discnum = none ∨ discnum = some 0

/-- The title, the folder and the disc number by which `_maybecreatealbum` looks for the album
of a track. -/
structure AlbumKey where
  albtitle : Str
  albfolder : Str
  albtdisc : Option Int
deriving DecidableEq

/-- The title without a disc number at its end, if it is the disc number of the track. -/
def titleAndDisc (album : Str) (discnum : Option Int) : Str × Option Int :=
  match albtitdnum album with
  | none => (album, discnum)
  | some (title, adiscnum) =>
      let discnum := if noDisc discnum then some (adiscnum : Int) else discnum
      (if discnum = some (adiscnum : Int) then title else album, discnum)

/-- What `_maybecreatealbum` finds out about a document. There is no result when its folder
cannot be found out. -/
def albumKey (env : Env) (doc : Doc) : Option AlbumKey :=
  (docfolder env doc).map fun path =>
    let folder := Utf8.decodeReplace path
    let album := if doc.get "album" = [] then basename folder else doc.get "album"
    let (album, discnum) := titleAndDisc album (Text.int (doc.get "discnumber"))
    let discnum :=
      if noDisc discnum then ((folderdnum (basename folder)).map Int.ofNat).or discnum
      else discnum
    { albtitle := album, albfolder := folder, albtdisc := discnum }

/-- Whether the album is one for a track with this key. The disc number counts if there is
one. -/
def AlbumKey.finds (key : AlbumKey) (title folder : Str) (disc : Option Int) : Bool :=
  title = key.albtitle ∧ folder = key.albfolder ∧ (noDisc key.albtdisc ∨ disc = key.albtdisc)

/-- The id of the album artist, if the document has one. -/
def albumArtist (db : Db) (doc : Doc) : Option (Db × Option Nat) :=
  if doc.get "albumartist" = [] then some (db, none)
  else
    (auxtableinsert db "artist".toList (doc.get "albumartist")).map
      fun inserted => (inserted.1, some inserted.2)

/-- The row which is inserted behind these ones. -/
def newAlbum (albums : List Album) (key : AlbumKey) (artist_id : Option Nat) (doc : Doc) :
    Album where
  album_id := albums.length + 1
  artist_id
  albtitle := key.albtitle
  albfolder := key.albfolder
  albdate := doc.get "date"
  albtdisc := key.albtdisc

/-- `_maybecreatealbum`. There is no result when sqlite cannot hold the disc number. -/
def maybecreatealbum (env : Env) (db : Db) (doc : Doc) : Option (Db × Nat) := do
  let key ← albumKey env doc
  let (db, artist_id) ← albumArtist db doc
  if fitsInteger (key.albtdisc.getD 0) = false then none
  else
    let albums ← db.albums
    match albums.find? fun row => key.finds row.albtitle row.albfolder row.albtdisc with
    | some row => some (db, row.album_id)
    | none =>
        let row := newAlbum albums key artist_id doc
        some ({ db with albums := some (albums ++ [row]) }, row.album_id)

/-- `_updatealbartistlist`. -/
def updatealbartistlist (db : Db) (album_id : Nat) (rowids : List Nat) : Db :=
  { db with
    albums := db.albums.map fun albums => albums.map fun row =>
      if row.album_id = album_id then { row with artists := row.artists ++ [rowids] } else row }

def parsedate (dt : Str) : Str :=
  let dt := dt.take 10
  let l := dt.splitOn '-'
  if l.length > 3 ∨ l.length = 2 ∨ (l.headD []).length ≠ 4 ∨ l.headD [] = "0000".toList then []
  else dt

/-- The value of a field for its tag, empty if there is none. -/
def tagValue (doc : Doc) (rclfld : Str) : Str :=
  if rclfld = "date".toList then
    let value := if doc.get "date" = [] then doc.get "dmtime" else doc.get "date"
    if value = [] then [] else parsedate value
  else if rclfld = "artist".toList then
    if doc.get "albumartist" = [] then doc.get "artist" else doc.get "albumartist"
  else doc.get (String.ofList rclfld)

/-- The values which a document has for a tag. -/
def tagValues (doc : Doc) (rclfld : Str) : List Str :=
  if tagValue doc rclfld = [] then [] else Text.split " | ".toList (tagValue doc rclfld)

/-- One value of a tag of a document. -/
def insertValue (docidx : Nat) (tb : Str) (db : Db) (value : Str) : Option (Db × Nat) := do
  let (db, rowid) ← auxtableinsert db tb value
  let rows ← db.junctions (junctb tb)
  let rows := rows ++ [(docidx, rowid)]
  return ({ db with junctions := Function.update db.junctions (junctb tb) (some rows) }, rowid)

theorem insertValue_spec {docidx rowid : Nat} {tb value : Str} {db db' : Db}
    (inserted : insertValue docidx tb db value = some (db', rowid)) :
    ∃ values values' rows, db.values tb = some values ∧ RowAt values' value rowid ∧
      values' = (if value ∈ values then values else values ++ [value]) ∧
      db.junctions (junctb tb) = some rows ∧
      db' =
        { db with
          values := Function.update db.values tb (some values')
          junctions :=
            Function.update db.junctions (junctb tb) (some (rows ++ [(docidx, rowid)])) } := by
  simp only [insertValue, bind, Option.bind_eq_some_iff] at inserted
  obtain ⟨⟨between, id⟩, first, rows, has_rows, same⟩ := inserted
  obtain ⟨values, values', has_values, at_id, grown, rfl⟩ := auxtableinsert_spec first
  cases same
  exact ⟨values, values', rows, has_values, at_id, grown, has_rows, rfl⟩

def insertValues (docidx : Nat) (tb : Str) : List Str → Db → Option (Db × List Nat)
  | [], db => some (db, [])
  | value :: rest, db => do
      let (db, rowid) ← insertValue docidx tb db value
      let (db, rowids) ← insertValues docidx tb rest db
      return (db, rowid :: rowids)

/-- The values of one tag of a document. -/
def insertTag (docidx album_id : Nat) (doc : Doc) (db : Db) (tag : Str × Str) : Option Db := do
  let (db, rowids) ← insertValues docidx tag.1 (tagValues doc tag.2) db
  if tag.1 = "artist".toList ∧ rowids ≠ [] then
    return updatealbartistlist db album_id rowids.eraseDups
  else return db

/-- The types of the documents which are tracks. -/
def isTrack (doc : Doc) : Bool :=
  audiomtypes.contains (doc.get "mtype") ∧ doc.get "mtype" ≠ directoryType ∧
    doc.get "mtype" ≠ playlistType

def trackPath (doc : Doc) : Str :=
  if "file://".toList.isPrefixOf (doc.get "url") then (doc.get "url").drop 7 else []

/-- One turn of the document loop of `recolltosql`. -/
def addDoc (env : Env) (tags : Tags) (db : Db) (doc : Doc) (docidx : Nat) : Option Db :=
  if isTrack doc then do
    let (db, album_id) ← maybecreatealbum env db doc
    let db ← tags.tabtorclfield.foldlM (insertTag docidx album_id doc) db
    let trackno := tracknofordoc doc
    if fitsInteger trackno = false then none
    else
      let tracks ← db.tracks
      let row : Track := { docidx, album_id, trackno, path := trackPath doc }
      return { db with tracks := some (tracks ++ [row]) }
  else some db

def addDocs (env : Env) (tags : Tags) : List Doc → (docidx : Nat) → Db → Option Db
  | [], _, db => some db
  | doc :: rest, docidx, db =>
      (addDoc env tags db doc docidx).bind (addDocs env tags rest (docidx + 1))

/-- `_setalbumartists`: an artist whom all the tracks share, if the album has none. -/
def setalbumartists (env : Env) (variousartistsid : Nat) (albums : List Album) : List Album :=
  albums.map fun row =>
    match row.artist_id, row.artists with
    | some _, _ => row
    | none, [] => { row with artist_id := some variousartistsid }
    | none, first :: rest =>
        let intersect := rest.foldl (fun shared ids => shared.filter (ids.contains ·)) first
        { row with
          artist_id := some (if intersect = [] then variousartistsid else env.firstOf intersect) }

/-- The image of the first track, in the order of the paths, which has one. -/
def albumCover (env : Env) (rcldocs : List Doc) (albtitle : Str) :
    List Track → Option (Option Str)
  | [] => some none
  | track :: rest => do
      let doc ← rcldocs[track.docidx]?
      match ← docarturi env doc true albtitle with
      | some arturi => some (some arturi)
      | none => albumCover env rcldocs albtitle rest

/-- `_setalbumcovers`. -/
def setalbumcovers (env : Env) (rcldocs : List Doc) (tracks : List Track) (albums : List Album) :
    Option (List Album) :=
  albums.mapM fun row => do
    let inOrder := (tracks.filter fun track => track.album_id = row.album_id).insertionSort
      fun first second => first.path ≤ second.path
    let cover ← albumCover env rcldocs row.albtitle inOrder
    return if cover = none then row else { row with albarturi := cover }

section Merging

/-- The rows which are looked at to be merged. -/
def candidate (row : Album) : Bool := row.albalb = none ∧ row.albtdisc ≠ none

/-- The rest of the loop of `_checkseq`. -/
def follows (num : Int) : List Int → Bool
  | [] => true
  | e :: rest => e = num + 1 ∧ follows e rest

/-- `_checkseq`. -/
def checkseq : List Int → Bool
  | [] => false
  | num :: rest => num ≠ 0 ∧ follows num rest

/-- The candidates with the title and the artist of this row. -/
def sameTitleAndArtist (albums : List Album) (r : Album) : List Album :=
  albums.filter fun row =>
    row.albtitle = r.albtitle ∧
      row.artist_id = (if r.artist_id.getD 0 = 0 then none else r.artist_id) ∧ candidate row

/-- `_mergealbumsfilterfolders`. -/
def mergealbumsfilterfolders (folder : Str) (rows : List Album) : List Album :=
  rows.filter fun row => row.albfolder = folder ∨ dirname row.albfolder = dirname folder

def nextAlbumId (albums : List Album) : Nat := (albums.map Album.album_id).foldl max 0 + 1

/-- `_membertotopalbum`: the row for the whole album, which is a copy of a member. -/
def membertotopalbum (albums : List Album) (member : Album) : Album :=
  { member with album_id := nextAlbumId albums, albtdisc := none }

def unsetDiscs (albids : List Nat) (albums : List Album) : List Album :=
  albums.map fun row => if row.album_id ∈ albids then { row with albtdisc := none } else row

def setTops (topalbid : Nat) (albids : List Nat) (albums : List Album) : List Album :=
  albums.map fun row => if row.album_id ∈ albids then { row with albalb := some topalbid } else row

/-- The table, and the ids which were merged so far. -/
structure MergeState where
  albums : List Album
  merged : List Nat

/-- The numbers of discs, in order. -/
def sortedDiscs (rows : List Album) : List Int :=
  (rows.filterMap Album.albtdisc).insertionSort (· ≤ ·)

/-- One turn of the loop of `_createmergedalbums`. -/
def mergeRow (s : MergeState) (r : Album) : MergeState :=
  if r.album_id ∈ s.merged then s
  else
    match mergealbumsfilterfolders r.albfolder (sameTitleAndArtist s.albums r) with
    | [] => s
    | [_] => { s with albums := unsetDiscs [r.album_id] s.albums }
    | first :: second :: rest =>
        let rows := first :: second :: rest
        let albids := rows.map Album.album_id
        if checkseq (sortedDiscs rows) then
          let top := membertotopalbum s.albums first
          { albums := setTops top.album_id albids (s.albums ++ [top])
            merged := s.merged ++ albids }
        else { s with albums := unsetDiscs albids s.albums }

/-- The row of this id, if the running query shows it. -/
def scanned (env : Env) (albums : List Album) (albid : Nat) : Option Album :=
  (albums.find? fun row => row.album_id = albid).filter fun row =>
    candidate row ∨ env.stillShown albid

def mergeScanned (env : Env) (s : MergeState) (albid : Nat) : MergeState :=
  match scanned env s.albums albid with
  | some r => mergeRow s r
  | none => s

/-- `_createmergedalbums`. -/
def createmergedalbums (env : Env) (albums : List Album) : List Album :=
  let shown := (albums.filter candidate).map Album.album_id
  let s := shown.foldl (mergeScanned env) { albums, merged := [] }
  s.albums.map fun row =>
    if row.albtdisc = none then { row with albalb := some row.album_id } else row

end Merging

/-- `recolltosql`. -/
def recolltosql (env : Env) (conf : TagConf) (tables : List (Str × Str)) (rcldocs : List Doc) :
    Option (Tags × Db) := do
  let db ← createsqdb conf.accepts tables
  let (tags, db) ← prepareTags conf tables db
  let (db, variousartistsid) ← auxtableinsert db "artist".toList "Various Artists".toList
  let db ← addDocs env tags rcldocs 0 db
  let albums ← db.albums
  -- the tracks are only looked for when there are albums, and then there are tracks
  let albums ← setalbumcovers env rcldocs (db.tracks.getD [])
    (setalbumartists env variousartistsid albums)
  return (tags, { db with albums := some (createmergedalbums env albums) })

end Upmpdcli.Uprcl
