import Mathlib.Data.List.Dedup
import Upmpdcli.Cdplugins.Uprcl.TagsAlbum
import Upmpdcli.Lib.Junction

set_option autoImplicit false

/- Browsing the tree of the tags. -/
namespace Upmpdcli.Uprcl

/-- What a path has selected: the folder it is restricted to, and values by the tables of their
tags. -/
structure Selection where
  folder : Str := []
  chosen : List (Str × Int) := []

/-- Where the walk of `_tagsbrowse` over a path ends. -/
inductive Target
  | albums (s : Selection) (rest : List Str)
  | items (s : Selection)
  | values (s : Selection) (col : Str)
  | content (s : Selection)

/-- `albums` and `items` in a path. -/
def special (s : Selection) (elt : Str) (rest : List Str) : Option Target :=
  if elt = "albums".toList then some (.albums s rest)
  else if elt = "items".toList then some (.items s)
  else none

/-- The id under which an album is shown. -/
def displayedId (alb : Album) : Nat :=
  if alb.albalb.getD 0 = 0 then alb.album_id else alb.albalb.getD 0

/-- The name of an artist in the table of the artists. -/
def artistName (artists : List Str) (artist_id : Option Nat) : Str :=
  (artist_id.bind fun id => if id = 0 then none else artists[id - 1]?).getD []

def albumClass : Str := "object.container.album.musicAlbum".toList

/-- A row of `_direntriesforalbums`. -/
def albumEntry (artists : List Str) (pid : Str) (alb : Album) : Entry :=
  direntry (pid ++ "$".toList ++ Text.str alb.album_id) pid alb.albtitle alb.albarturi
    (artistName artists alb.artist_id) alb.albdate albumClass

def completeAlbum (id pid : Str) : Entry := direntry id pid ">> Complete Album".toList

/-- The tree of the tags, with all its tables. A track is there once, each album is shown as one
which is displayed, and each tag of the tree has a table and a name. -/
structure TagTree extends Tagged where
  tags : Tags
  tabled : ∀ tt ∈ tags.indextags,
    (tags.tagtotable.lookup tt).isSome ∧ (tags.tagdisplaytag.lookup tt).isSome
  table : Option (List Track)
  tracks_eq : tracks = table.getD []
  docidxs : (tracks.map Track.docidx).Nodup
  has_album : ∀ row ∈ tracks, row.album_id ∈ albums.map Album.album_id
  shown_as : ∀ alb ∈ albums, ∃ top ∈ albums, top.albtdisc = none ∧ top.album_id ≠ 0 ∧
    alb.albalb = some top.album_id
  values : Str → Option (List Str)
  has_artists : (values "artist".toList).isSome
  junctions : Str → Option (List (Nat × Nat))

namespace TagTree

variable (t : TagTree)

/-- The junction table of a tag. -/
def junction (tb : Str) : Option (List (Nat × Int)) :=
  (t.junctions (junctb tb)).map fun pairs => pairs.map fun pair => (pair.1, (pair.2 : Int))

section Select

/-- The rows of the tracks below a folder. -/
def rowsBelow (folder : Str) : Option (List Track) :=
  t.table.map fun rows =>
    if folder = [] then rows else rows.filter fun row => like (folder ++ ['%']) row.path

/-- One more junction table of a statement. -/
def joinChoice (rows : List Track) (choice : Str × Int) : Option (List Track) :=
  (t.junction choice.1).map fun pairs =>
    Junction.withValue Track.docidx pairs choice.2 rows

/-- The rows of a statement with these tables, where no table may be there twice, and with these
values, which sqlite has to hold. -/
def selectRows (s : Selection) : Option (List Track) := do
  let rows ← t.rowsBelow s.folder
  if (s.chosen.map Prod.fst).Nodup ∧ ∀ choice ∈ s.chosen, fitsInteger choice.2 then
    s.chosen.foldlM t.joinChoice rows
  else none

/-- `_docidsforsel`. -/
def docidsforsel (s : Selection) : Option (List Nat) :=
  (t.selectRows s).map fun rows =>
    (rows.mergeSort fun row row' => row.trackno ≤ row'.trackno).map Track.docidx

/-- What `_rawalbids2albids` does with one id. -/
def rawalbid2albid (rawalbid : Nat) : Option Nat :=
  (t.albums.find? fun alb => alb.album_id = rawalbid).map displayedId

/-- `_subtreealbums`. The ids are a set. -/
def subtreealbums (s : Selection) : Option (List Nat) := do
  let rows ← t.selectRows s
  let albids ← (rows.map Track.album_id).mapM t.rawalbid2albid
  return albids.dedup

/-- The number of the values which the selected tracks have in one more table. -/
def countValues (s : Selection) (tb : Str) : Option Nat := do
  let rows ← t.selectRows s
  let pairs ← t.junction tb
  return (Junction.values Track.docidx pairs rows).dedup.length

/-- `_subtreetags`, for these tags. -/
def subtreetags (s : Selection) : (indextags : List Str) → Option (List Str)
  | [] => some []
  | tt :: rest => do
      let tb ← t.tags.tagtotable.lookup tt
      if tb ∈ s.chosen.map Prod.fst then subtreetags s rest
      else
        let cnt ← t.countValues s tb
        let tags ← subtreetags s rest
        return if 1 < cnt then tt :: tags else tags

end Select

section Entries

/-- The entry of a track, with an id of this kind. -/
def trackEntryAs (kind pid : Str) (docidx : Nat) : Option Entry :=
  t.rcldocs[docidx]?.bind (rcldoctoentry t.env (pid ++ kind ++ Text.str docidx) pid)

/-- The albums which are displayed, of these ones. -/
def shownAlbums (keep : Nat → Bool) : List Album :=
  t.albums.filter fun alb => keep alb.album_id ∧ alb.albtdisc = none

/-- `_direntriesforalbums`, with the rows which its statement selects. -/
def direntriesforalbums (pid : Str) (rows : List Album) : Option (List Entry) :=
  (t.values "artist".toList).map fun artists =>
    (rows.mergeSort fun alb alb' => compareText alb.albtitle alb'.albtitle ≤ 0).map
      (albumEntry artists pid)

/-- `_trackentriesforalbum`, for an id of a path. -/
def trackentriesforpath (albid : Int) (pid : Str) : Option (List Entry) :=
  if fitsInteger albid = false then none
  else if albid < 0 then some []
  else t.trackentriesforalbum albid.toNat pid

/-- `_albids2rawalbids`, of one id. -/
def albid2rawalbids (albid : Int) : List Int :=
  let rows := t.albums.filter fun alb => alb.albalb.map Int.ofNat = some albid
  if rows = [] then [albid] else rows.map fun alb => (alb.album_id : Int)

/-- The tracks of an album which are selected, with an entry for the others if there are some. -/
def albumSelection (pid : Str) (s : Selection) (albid : Int) : Option (List Entry) := do
  let rows ← t.table
  let rawalbids := t.albid2rawalbids albid
  let ofAlbum := rows.filter fun row => (row.album_id : Int) ∈ rawalbids
  if fitsInteger albid = false then none
  else
    let docidsl ← t.docidsforsel s
    let selected := (ofAlbum.filter fun row => row.docidx ∈ docidsl).map Track.docidx
    let entries ← (← selected.mapM (t.trackEntryAs "$i".toList pid)) |> sortEntries t.lower
    if ofAlbum.length ≠ entries.length then
      return completeAlbum (pid ++ "$showca".toList) pid :: entries
    else return entries

/-- `_tagsbrowsealbums`, with what is behind `albums` in the path. -/
def tagsbrowsealbums (pid : Str) (s : Selection) : (rest : List Str) → Option (List Entry)
  | [] => do
      let albids ← t.subtreealbums s
      t.direntriesforalbums pid (t.shownAlbums fun albid => albid ∈ albids)
  | [albid] => (Text.int albid).bind (t.albumSelection pid s)
  | [albid, _] => (Text.int albid).bind fun albid => t.trackentriesforpath albid pid
  | _ => some []

/-- The entry for the rest of the only album, if it has more tracks than these. -/
def restOfAlbum (id pid : Str) (albid count : Nat) : Option (List Entry) := do
  let tlist ← t.trackentriesforalbum albid pid
  return if tlist.length ≠ count then [completeAlbum id pid] else []

/-- The id of the rest of an album, for the tracks of a selection. -/
def contentRestId (pid : Str) (albid : Nat) : Str :=
  pid ++ "$albums$".toList ++ Text.str albid ++ "$showca".toList

/-- The id of the rest of an album, for a list of items. -/
def itemsRestId (pid : Str) (albid : Nat) : Str :=
  List.intercalate "$albums".toList (Text.split "$items".toList pid) ++ "$".toList ++
    Text.str albid ++ "$showca".toList

/-- `_tagsbrowseitems`. -/
def tagsbrowseitems (pid : Str) (s : Selection) : Option (List Entry) := do
  let rows ← t.selectRows s
  let albids ← t.subtreealbums s
  let rest ←
    match albids with
    | [albid] => t.restOfAlbum (itemsRestId pid albid) pid albid rows.length
    | _ => some []
  let tracks ← (rows.map Track.docidx).mapM (t.trackEntryAs "$i".toList pid)
  return rest ++ (← sortItems tracks)

end Entries

section Browse

/-- The entries for the albums of a selection of so many tracks, and whether its tracks are
displayed. -/
def contentAlbums (pid : Str) (count : Nat) : (albids : List Nat) → Option (List Entry × Bool)
  | [] => some ([], true)
  | [albid] => do
      let id := contentRestId pid albid
      let rest ← t.restOfAlbum id pid albid count
      if rest ≠ [] then return (rest, true)
      else
        let el ← t.direntriesforalbums pid (t.shownAlbums (· = albid))
        match el with
        | [] => none
        | first :: _ => return ([Dict.set first "id" id], false)
  | albids =>
      let label := Text.str albids.length ++ " albums".toList
      some ([direntry (pid ++ "$albums".toList) pid label], true)

/-- The entry of a tag. -/
def tagEntry (pid tt : Str) : Option Entry :=
  (t.tags.tagdisplaytag.lookup tt).map (direntry (pid ++ "$=".toList ++ tt) pid)

/-- The end of `_tagsbrowse`, for a value of a tag. -/
def browsecontent (pid : Str) (s : Selection) : Option (List Entry) := do
  let docids ← t.docidsforsel s
  let albids ← t.subtreealbums s
  let subqs ← t.subtreetags s t.tags.indextags
  let (albums, displaytracks) ← t.contentAlbums pid docids.length albids
  if subqs ≠ [] then
    let label := Text.str docids.length ++ " items".toList
    let tags ← subqs.mapM (t.tagEntry pid)
    return albums ++ direntry (pid ++ "$items".toList) pid label :: tags
  else if displaytracks then
    let tracks ← docids.mapM (t.trackEntryAs "$*i".toList pid)
    return albums ++ (← sortItems tracks)
  else return albums

/-- The end of `_tagsbrowse`, for the values of a tag. -/
def browsevalues (pid : Str) (s : Selection) (col : Str) : Option (List Entry) := do
  let rows ← t.selectRows s
  let pairs ← t.junction col
  let values ← t.values col
  if col ∈ s.chosen.map Prod.fst then none
  else
    let there := Junction.values Track.docidx pairs rows
    let found := values.zipIdx.filter fun entry => ((entry.2 + 1 : Nat) : Int) ∈ there
    let found := found.mergeSort fun entry entry' => compareText entry.1 entry'.1 ≤ 0
    return found.map fun entry =>
      direntry (pid ++ "$".toList ++ Text.str (entry.2 + 1)) pid entry.1

/-- The table of an element of a path, or the last one when the element is none for a tag. -/
def column (col : Option Str) (elt : Str) : Option Str :=
  if elt.head? = some '=' then t.tags.tagtotable.lookup elt.tail else col

/-- The walk of `_tagsbrowse` over the path. -/
def walk (s : Selection) (col : Option Str) : List Str → Option Target
  | [] => some (.content s)
  | [elt] =>
      match special s elt [] with
      | some target => some target
      | none => (t.column col elt).map (.values s)
  | elt :: value :: rest =>
      match special s elt (value :: rest) with
      | some target => some target
      | none => do
          let col ← t.column col elt
          let value ← Text.int value
          walk { s with chosen := s.chosen ++ [(col, value)] } (some col) rest

/-- `_tagsbrowse`. -/
def tagsbrowse (pid : Str) (qpath : List Str) (folder : Str) : Option (List Entry) := do
  match ← t.walk { folder } none qpath with
  | .albums s rest => t.tagsbrowsealbums pid s rest
  | .items s => t.tagsbrowseitems pid s
  | .values s col => t.browsevalues pid s col
  | .content s => t.browsecontent pid s

end Browse

end TagTree

end Upmpdcli.Uprcl
