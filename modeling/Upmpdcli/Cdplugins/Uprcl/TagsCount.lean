import Mathlib.Data.List.Perm.Basic
import Upmpdcli.Cdplugins.Uprcl.TagsBuilt
import Upmpdcli.Lib.Grouping

set_option autoImplicit false

/- How often a track is counted and listed in the tree of the tags. -/
namespace Upmpdcli.Uprcl

section Entries

variable {env : Env} {doc : Doc} {li e : Entry} {key : String}

/-- The number of a track, one if it has none. There is no result when it is no number. -/
def numberOf (doc : Doc) : Option Int :=
  if doc.get "tracknumber" = [] then some 1
  else Text.int ((doc.get "tracknumber").takeWhile (· ≠ '/'))

theorem lookup_copy_of_not_mem {names : List (String × String)}
    (other : key ∉ names.map Prod.fst) (doc : Doc) (li : Entry) :
    (names.foldl (fun (li : Entry) name =>
      let val := doc.get name.2
      if val = [] then li else Dict.set li name.1 val) li).lookup key = li.lookup key := by
  induction names generalizing li with
  | nil => rfl
  | cons name rest ih =>
      rw [List.map_cons, List.mem_cons, not_or] at other
      rw [List.foldl_cons, ih other.2]
      dsimp only
      split
      · rfl
      · exact Dict.lookup_set_of_ne other.1 _ _

/-- A field which comes with the class, the copied fields or the number, and not behind them. -/
theorem lookup_fillEntry
    (other : key ∉ ["upnp:albumArtURI", "upnp:artist", "didlfrag", "uri", "tt"])
    (filled : fillEntry env doc li = some e) :
    e.lookup key =
      if key = numberKey then
        ((copiedFields doc (withClass doc li)).lookup key).map (List.takeWhile (· ≠ '/'))
      else (copiedFields doc (withClass doc li)).lookup key := by
  simp only [List.mem_cons, List.not_mem_nil, or_false, not_or] at other
  obtain ⟨art_key, artist_key, didl_key, uri_key, title_key⟩ := other
  obtain ⟨art, made, rfl⟩ := Option.map_eq_some_iff.mp filled
  have of_art : art.lookup key = (copiedFields doc (withClass doc li)).lookup key := by
    unfold withArt at made
    split at made
    · cases made
      rfl
    · obtain ⟨arturi, -, rfl⟩ := Option.map_eq_some_iff.mp made
      split
      · exact Dict.lookup_set_of_ne art_key _ _
      · rfl
  have of_artist : (withArtist doc art).lookup key = art.lookup key := by
    unfold withArtist
    split
    · exact Dict.lookup_set_of_ne artist_key _ _
    · rfl
  have of_didl : (withDidlfrag doc (withArtist doc art)).lookup key =
      (copiedFields doc (withClass doc li)).lookup key := by
    rw [← of_art, ← of_artist]
    unfold withDidlfrag
    split
    · rfl
    · exact Dict.lookup_set_of_ne didl_key _ _
  have of_title (li : Entry) : (withTitle doc (Dict.set li "uri" (docuri env doc))).lookup key =
      li.lookup key := by
    unfold withTitle
    dsimp only
    split
    · exact Dict.lookup_set_of_ne uri_key _ _
    · rw [Dict.lookup_set_of_ne title_key, Dict.lookup_set_of_ne uri_key]
  rw [of_title, ← of_didl]
  generalize withDidlfrag doc (withArtist doc art) = before
  unfold withTrackNumber
  by_cases here : key = numberKey
  · rw [if_pos here, here, numberKey]
    cases has_number : before.lookup "upnp:originalTrackNumber" with
    | none => exact has_number
    | some val => exact Dict.lookup_set_self _ _ _
  · rw [if_neg here]
    split
    · exact Dict.lookup_set_of_ne here _ _
    · rfl

/-- The entry of a track is none of a container, and its number is the one of the document. -/
theorem fillEntry_track (no_directory : doc.get "mtype" ≠ directoryType)
    (filled : fillEntry env doc [] = some e) :
    e.lookup "tp" = some "it".toList ∧ trackNumber e = numberOf doc := by
  have classed : (withClass doc []).lookup "tp" = some "it".toList ∧
      (withClass doc []).lookup numberKey = none := by
    unfold withClass
    rw [if_neg no_directory]
    exact ⟨by decide, by decide⟩
  constructor
  · rw [lookup_fillEntry (by decide) filled, if_neg (by decide), copiedFields,
      lookup_copy_of_not_mem (by decide)]
    exact classed.1
  · have parts : upnp2rclfields =
        upnp2rclfields.dropLast ++ [("upnp:originalTrackNumber", "tracknumber")] := by decide
    have copied : (copiedFields doc (withClass doc [])).lookup numberKey =
        if doc.get "tracknumber" = [] then none else some (doc.get "tracknumber") := by
      unfold copiedFields
      rw [parts, List.foldl_append, List.foldl_cons, List.foldl_nil]
      dsimp only
      split
      · rw [lookup_copy_of_not_mem (by decide)]
        exact classed.2
      · exact Dict.lookup_set_self _ _ _
    unfold trackNumber numberOf
    rw [lookup_fillEntry (by decide) filled, if_pos rfl, copied]
    by_cases no_number : doc.get "tracknumber" = []
    · rw [if_pos no_number, if_pos no_number]
      rfl
    · rw [if_neg no_number, if_neg no_number]
      rfl

end Entries

namespace TagTree

variable (t : TagTree)

section Specification

/-- The tracks which have all the values of a selection. -/
def matching (s : Selection) : List Track :=
  t.tracks.filter fun row =>
    (s.folder = [] ∨ like (s.folder ++ ['%']) row.path) ∧
      ∀ choice ∈ s.chosen, (row.docidx, choice.2) ∈ (t.junction choice.1).getD []

/-- The id of the album which a track is shown in. -/
def albumOf (row : Track) : Option Nat := t.rawalbid2albid row.album_id

def albumRows (albid : Nat) : List Track := t.tracks.filter fun row => t.albumOf row = some albid

/-- All the tracks of the selection are of this album. -/
def OnlyAlbum (s : Selection) (albid : Nat) : Prop :=
  t.matching s ≠ [] ∧ ∀ row ∈ t.matching s, t.albumOf row = some albid

/-- The selection lacks a track of the album. -/
def Lacks (s : Selection) (albid : Nat) : Prop := ∃ row ∈ t.albumRows albid, row ∉ t.matching s

/-- The table of a tag of the tree. -/
def tagTable (tt : Str) : Str := (t.tags.tagtotable.lookup tt).getD []

/-- The selected tracks have different values of a tag which is none of the selection. -/
def Splits (s : Selection) (tt : Str) : Prop :=
  t.tagTable tt ∉ s.chosen.map Prod.fst ∧
    let there := Junction.values Track.docidx ((t.junction (t.tagTable tt)).getD []) (t.matching s)
    ∃ value ∈ there, ∃ other ∈ there, value ≠ other

def MoreTags (s : Selection) : Prop := ∃ tt ∈ t.tags.indextags, t.Splits s tt

/-- A path of tags of the tree and ids of values, which sqlite can hold. -/
structure IsPath (path : List (Str × Nat)) : Prop where
  some_choice : path ≠ []
  tags : ∀ choice ∈ path, choice.1 ∈ t.tags.indextags
  fits : ∀ choice ∈ path, fitsInteger choice.2 = true
  apart : (path.map fun choice => t.tagTable choice.1).Nodup

def selection (folder : Str) (path : List (Str × Nat)) : Selection where
  folder
  chosen := path.map fun choice => (t.tagTable choice.1, (choice.2 : Int))

/-- The elements of the object id of a path. -/
def qpath (path : List (Str × Nat)) : List Str :=
  path.flatMap fun choice => ['=' :: choice.1, Text.str choice.2]

def isTrackEntry (e : Entry) : Bool := !isct e

/-- The entries have those of the selected tracks, each once. -/
def ListsTracks (kind pid : Str) (s : Selection) (entries : List Entry) : Prop :=
  ∃ listed, (t.matching s).mapM (fun row => t.trackEntryAs kind pid row.docidx) = some listed ∧
    (entries.filter isTrackEntry).Perm listed

/-- What is displayed for a selection: the number of its tracks when there are more tags, and else
the tracks, but for a whole album, which is displayed itself. -/
structure ListsOnce (pid : Str) (s : Selection) (entries : List Entry) : Prop where
  items : ∀ title, direntry (pid ++ "$items".toList) pid title ∈ entries ↔
    t.MoreTags s ∧ title = Text.str (t.matching s).length ++ " items".toList
  complete : ∀ albid, completeAlbum (contentRestId pid albid) pid ∈ entries ↔
    t.OnlyAlbum s albid ∧ t.Lacks s albid
  tracks : ¬ t.MoreTags s → (∀ albid, t.OnlyAlbum s albid → t.Lacks s albid) →
    t.ListsTracks "$*i".toList pid s entries
  others : t.MoreTags s ∨ (∃ albid, t.OnlyAlbum s albid ∧ ¬ t.Lacks s albid) →
    ∀ e ∈ entries, isct e = true

/-- The list of the items of a selection. -/
structure ItemsOnce (pid : Str) (s : Selection) (entries : List Entry) : Prop where
  complete : ∀ albid, completeAlbum (itemsRestId pid albid) pid ∈ entries ↔
    t.OnlyAlbum s albid ∧ t.Lacks s albid
  tracks : t.ListsTracks "$i".toList pid s entries

/-- No junction table holds a row twice, and each selected track is counted and listed once. -/
structure CountsOnce : Prop where
  distinct : ∀ tb pairs, t.junctions (junctb tb) = some pairs → pairs.Nodup
  listed : ∀ folder path, t.IsPath path → ∀ pid,
    ∃ entries, t.tagsbrowse pid (qpath path) folder = some entries ∧
      t.ListsOnce pid (t.selection folder path) entries
  items : ∀ folder path, t.IsPath path → ∀ pid,
    ∃ entries, t.tagsbrowse pid (qpath path ++ ["items".toList]) folder = some entries ∧
      t.ItemsOnce pid (t.selection folder path) entries

/-- The number of a track can be read. -/
def HasNumber (row : Track) : Prop := ∃ doc, t.rcldocs[row.docidx]? = some doc ∧ numberOf doc ≠ none

/-- The tables are there, and the tracks of an album which is the only one of a selection have
numbers. -/
structure Browsable : Prop where
  table : t.tags.indextags ≠ [] → t.table ≠ none
  junctions : ∀ tt ∈ t.tags.indextags, t.junction (t.tagTable tt) ≠ none
  numbers : ∀ folder path, t.IsPath path → ∀ albid, t.OnlyAlbum (t.selection folder path) albid →
    ∀ row ∈ t.albumRows albid, t.HasNumber row

end Specification

section Tracks

variable {t} {row : Track}

theorem lookup_behind_ids {key : String} (no_pid : "pid" ≠ key) (no_id : "id" ≠ key) (pid id : Str)
    (li : Entry) : (("pid", pid) :: ("id", id) :: li : Entry).lookup key = li.lookup key := by
  rw [Dict.lookup_cons_of_ne no_pid, Dict.lookup_cons_of_ne no_id]

theorem trackEntryAs_spec (member : row ∈ t.tracks) (kind pid : Str) :
    ∃ doc e, t.rcldocs[row.docidx]? = some doc ∧ t.trackEntryAs kind pid row.docidx = some e ∧
      isct e = false ∧ trackNumber e = numberOf doc := by
  obtain ⟨doc, there, track, -⟩ := t.listable row member
  simp only [isTrack, Bool.decide_and, Bool.and_eq_true, List.contains_iff_mem,
    decide_eq_true_eq] at track
  obtain ⟨audio, no_directory, -⟩ := track
  have filled : fillEntry t.env doc [] ≠ none := by
    have entry := t.exists_trackEntry member []
    unfold Tagged.trackEntry at entry
    rw [there, Option.bind_some, rcldoctoentry_eq audio] at entry
    exact fun lacking => entry (by rw [lacking]; rfl)
  obtain ⟨li, made⟩ := Option.ne_none_iff_exists'.mp filled
  obtain ⟨type, number⟩ := fillEntry_track no_directory made
  refine ⟨doc, ("pid", pid) :: ("id", pid ++ kind ++ Text.str row.docidx) :: li, there, ?_, ?_, ?_⟩
  · unfold trackEntryAs
    rw [there, Option.bind_some, rcldoctoentry_eq audio, made]
    rfl
  · unfold isct
    rw [lookup_behind_ids (by decide) (by decide), type]
    decide
  · rw [← number]
    unfold trackNumber
    rw [lookup_behind_ids (by decide) (by decide)]

/-- The entries of tracks of the table. -/
theorem exists_entries {rows : List Track} (inside : rows ⊆ t.tracks) (kind pid : Str) :
    ∃ listed, rows.mapM (fun row => t.trackEntryAs kind pid row.docidx) = some listed ∧
      ∀ e ∈ listed, isct e = false := by
  obtain ⟨listed, found⟩ := MapM.exists_eq_some (f := fun row : Track =>
    t.trackEntryAs kind pid row.docidx) rows fun row member => by
      obtain ⟨_, e, -, made, -⟩ := trackEntryAs_spec (inside member) kind pid
      rw [made]
      exact Option.some_ne_none e
  refine ⟨listed, found, fun e member => ?_⟩
  obtain ⟨row, of_rows, made⟩ := MapM.mem_of_eq_some found member
  obtain ⟨_, e', -, made', type, -⟩ := trackEntryAs_spec (inside of_rows) kind pid
  cases made.symm.trans made'
  exact type

end Tracks

section Select

variable {t} {s : Selection} {rows : List Track}

theorem junction_nodup
    (distinct : ∀ tb pairs, t.junctions (junctb tb) = some pairs → pairs.Nodup) {tb : Str}
    {pairs : List (Nat × Int)} (there : t.junction tb = some pairs) : pairs.Nodup := by
  obtain ⟨stored, has_pairs, rfl⟩ := Option.map_eq_some_iff.mp there
  refine (distinct tb stored has_pairs).map ?_
  intro pair pair' same
  rw [Prod.mk.injEq, Int.ofNat_inj] at same
  exact Prod.ext same.1 same.2

/-- A selection is the tracks with all its values, once each. -/
theorem selectRows_eq
    (distinct : ∀ tb pairs, t.junctions (junctb tb) = some pairs → pairs.Nodup)
    (has_table : t.table ≠ none) (junctions : ∀ choice ∈ s.chosen, t.junction choice.1 ≠ none)
    (apart : (s.chosen.map Prod.fst).Nodup)
    (fits : ∀ choice ∈ s.chosen, fitsInteger choice.2 = true) :
    t.selectRows s = some (t.matching s) := by
  have joined : ∀ (chosen : List (Str × Int)) (rows : List Track),
      (∀ choice ∈ chosen, t.junction choice.1 ≠ none) →
        chosen.foldlM t.joinChoice rows = some (rows.filter fun row =>
          ∀ choice ∈ chosen, (row.docidx, choice.2) ∈ (t.junction choice.1).getD []) := by
    intro chosen
    induction chosen with
    | nil =>
        intro rows _
        simp
    | cons choice rest ih =>
        intro rows there
        rw [List.forall_mem_cons] at there
        obtain ⟨pairs, has_pairs⟩ := Option.ne_none_iff_exists'.mp there.1
        have first : t.joinChoice rows choice =
            some (rows.filter fun row => (row.docidx, choice.2) ∈ pairs) := by
          rw [joinChoice, has_pairs, Option.map_some,
            Junction.withValue_eq_filter (junction_nodup distinct has_pairs)]
        rw [List.foldlM_cons, first, Option.bind_eq_bind, Option.bind_some, ih _ there.2,
          List.filter_filter]
        refine congrArg some (List.filter_congr fun row _ => ?_)
        rw [← Bool.decide_and, decide_eq_decide, List.forall_mem_cons, has_pairs, Option.getD_some]
        exact and_comm
  obtain ⟨stored, has_rows⟩ := Option.ne_none_iff_exists'.mp has_table
  have below : t.rowsBelow s.folder = some (t.tracks.filter fun row =>
      s.folder = [] ∨ like (s.folder ++ ['%']) row.path) := by
    rw [rowsBelow, t.tracks_eq, has_rows, Option.map_some, Option.getD_some]
    split
    · rename_i everywhere
      simp [everywhere]
    · rename_i folder
      simp [folder]
  unfold selectRows
  rw [below]
  simp only [bind, Option.bind_some]
  rw [if_pos ⟨apart, fits⟩, joined _ _ junctions, List.filter_filter]
  refine congrArg some (List.filter_congr fun row _ => ?_)
  rw [← Bool.decide_and, decide_eq_decide]
  exact and_comm

theorem matching_subset : t.matching s ⊆ t.tracks := List.filter_subset_self _

theorem there_of_selectRows (selected : t.selectRows s = some rows) :
    t.table ≠ none ∧ ∀ choice ∈ s.chosen, t.junction choice.1 ≠ none := by
  simp only [selectRows, bind, Option.bind_eq_some_iff] at selected
  obtain ⟨below, has_table, selected⟩ := selected
  have table : t.table ≠ none := by
    rintro lacking
    rw [rowsBelow, lacking] at has_table
    cases has_table
  have joined : ∀ (chosen : List (Str × Int)) (below : List Track),
      chosen.foldlM t.joinChoice below = some rows →
        ∀ choice ∈ chosen, t.junction choice.1 ≠ none := by
    intro chosen
    induction chosen with
    | nil => exact fun _ _ _ member => (nomatch member)
    | cons choice rest ih =>
        intro below selected
        rw [List.foldlM_cons] at selected
        obtain ⟨next, first, later⟩ := Option.bind_eq_some_iff.mp selected
        rw [List.forall_mem_cons]
        refine ⟨fun lacking => ?_, ih next later⟩
        rw [joinChoice, lacking] at first
        cases first
  refine ⟨table, ?_⟩
  split at selected
  · exact joined _ _ selected
  · cases selected

end Select

section Albums

variable {t} {s : Selection} {rows : List Track} {row : Track} {albid : Nat}

/-- A track is shown in an album which is displayed, to which its own album points. -/
theorem albumOf_spec (member : row ∈ t.tracks) :
    ∃ alb ∈ t.albums, alb.album_id = row.album_id ∧ ∃ top ∈ t.albums, top.albtdisc = none ∧
      alb.albalb = some top.album_id ∧ t.albumOf row = some top.album_id := by
  obtain ⟨alb, inside, same⟩ := List.mem_map.mp (t.has_album row member)
  obtain ⟨top, top_inside, no_disc, above, points⟩ := t.shown_as alb inside
  refine ⟨alb, inside, same, top, top_inside, no_disc, points, ?_⟩
  have found : t.albums.find? (fun other => other.album_id = row.album_id) = some alb := by
    cases known : t.albums.find? fun other => other.album_id = row.album_id with
    | none =>
        have differs := List.find?_eq_none.mp known alb inside
        simp [same] at differs
    | some other =>
        have other_id := List.find?_some known
        rw [decide_eq_true_iff] at other_id
        rw [eq_of_album_id t.distinct (List.mem_of_find?_eq_some known) inside
          (other_id.trans same.symm)]
  rw [albumOf, rawalbid2albid, found, Option.map_some, displayedId, points, Option.getD_some,
    if_neg above]

theorem displayed_of_albumOf (member : row ∈ t.tracks) (shown : t.albumOf row = some albid) :
    t.Displayed albid := by
  obtain ⟨_, -, -, top, inside, no_disc, -, as_top⟩ := albumOf_spec member
  rw [shown, Option.some.injEq] at as_top
  exact ⟨top, inside, as_top.symm, no_disc⟩

/-- The tracks of an album are those of its parts. -/
theorem albumOf_eq_some_iff (displayed : t.Displayed albid) (member : row ∈ t.tracks) :
    t.albumOf row = some albid ↔ row.album_id ∈ t.albid2rawalbidssorted albid := by
  obtain ⟨parts, perm, -, -, ids⟩ := t.albid2rawalbidssorted_spec displayed
  obtain ⟨alb, inside, same, top, -, -, points, as_top⟩ := albumOf_spec member
  have part_iff : row.album_id ∈ t.albid2rawalbidssorted albid ↔ alb.albalb = some albid := by
    rw [ids]
    constructor
    · intro of_parts
      obtain ⟨part, part_inside, part_id⟩ := List.mem_map.mp of_parts
      rw [perm.mem_iff, List.mem_filter, decide_eq_true_eq] at part_inside
      rw [← eq_of_album_id t.distinct part_inside.1 inside (part_id.trans same.symm)]
      exact part_inside.2
    · intro points
      rw [← same]
      refine List.mem_map_of_mem ?_
      rw [perm.mem_iff, List.mem_filter, decide_eq_true_eq]
      exact ⟨inside, points⟩
  rw [part_iff, points, as_top]

/-- The tracks of the discs of an album are the ones which are shown in it. -/
theorem albumTracks_perm (displayed : t.Displayed albid) (pid : Str) :
    ∃ listed, (t.albumRows albid).mapM (fun row => t.trackEntryAs "$i".toList pid row.docidx) =
      some listed ∧ (t.albumTracks pid albid).Perm listed := by
  obtain ⟨listed, found, -⟩ :=
    t.exists_entries (List.filter_subset_self _ : t.albumRows albid ⊆ t.tracks) "$i".toList pid
  refine ⟨listed, found, ?_⟩
  obtain ⟨parts, -, -, distinct, ids⟩ := t.albid2rawalbidssorted_spec displayed
  have covered : ∀ row ∈ t.albumRows albid, row.album_id ∈ t.albid2rawalbidssorted albid := by
    intro row member
    rw [albumRows, List.mem_filter, decide_eq_true_eq] at member
    exact (albumOf_eq_some_iff displayed member.1).mp member.2
  have groups : ((t.albid2rawalbidssorted albid).flatMap
      (Grouping.group Track.album_id (t.albumRows albid))).Perm (t.albumRows albid) :=
    Grouping.flatMap_group_perm (ids ▸ distinct) covered
  have disc (part : Nat) (of_parts : part ∈ t.albid2rawalbidssorted albid) :
      (t.discTracks pid part).Perm ((Grouping.group Track.album_id (t.albumRows albid) part).filterMap
        fun row => t.trackEntryAs "$i".toList pid row.docidx) := by
    have same : (t.tracks.filter fun row => row.album_id = part) =
        Grouping.group Track.album_id (t.albumRows albid) part := by
      rw [Grouping.group, albumRows, List.filter_filter]
      refine List.filter_congr fun row member => ?_
      rw [← Bool.decide_and, decide_eq_decide]
      refine ⟨fun here => ⟨here, ?_⟩, And.left⟩
      exact (albumOf_eq_some_iff displayed member).mpr (here ▸ of_parts)
    obtain ⟨entries, made, perm⟩ := (t.discEntries_eq pid part).2
    rw [← same]
    refine perm.trans ?_
    rw [List.mapM_map] at made
    rw [← MapM.filterMap_of_eq_some made]
    rfl
  rw [← MapM.filterMap_of_eq_some found]
  refine (List.Perm.flatMap_left _ disc).trans ?_
  rw [← List.filterMap_flatMap]
  exact groups.filterMap _

/-- The list of an album which is displayed is as long as it has tracks, when these have numbers. -/
theorem trackentriesforalbum_length (displayed : t.Displayed albid) (pid : Str)
    (numbers : ∀ row ∈ t.albumRows albid, t.HasNumber row) :
    ∃ tlist, t.trackentriesforalbum albid pid = some tlist ∧
      tlist.length = (t.albumRows albid).length := by
  obtain ⟨listed, found, perm⟩ := albumTracks_perm displayed pid
  obtain ⟨read, has_numbers⟩ : ∃ read, (t.albumTracks pid albid).mapM trackNumber = some read := by
    refine MapM.exists_eq_some _ fun e member => ?_
    obtain ⟨row, of_album, made⟩ := MapM.mem_of_eq_some found (perm.subset member)
    obtain ⟨doc, there, number⟩ := numbers row of_album
    obtain ⟨doc', e', there', made', -, same⟩ :=
      trackEntryAs_spec (List.mem_of_mem_filter of_album) "$i".toList pid
    cases made.symm.trans made'
    cases there.symm.trans there'
    rwa [same]
  obtain ⟨tlist, made, same, -⟩ := renumber_spec has_numbers none
  refine ⟨tlist, (t.trackentriesforalbum_eq albid pid).trans made, ?_⟩
  have lengths := congrArg List.length same
  rw [List.length_map, List.length_map] at lengths
  rw [lengths, perm.length_eq, MapM.length_of_eq_some found]

theorem hasNumber_of_trackentriesforalbum (displayed : t.Displayed albid) {pid : Str}
    {tlist : List Entry} (listed_album : t.trackentriesforalbum albid pid = some tlist)
    (member : row ∈ t.albumRows albid) : t.HasNumber row := by
  obtain ⟨listed, found, perm⟩ := albumTracks_perm displayed pid
  obtain ⟨doc, e, there, made, -, same⟩ :=
    trackEntryAs_spec (List.mem_of_mem_filter member) "$i".toList pid
  refine ⟨doc, there, fun lacking => ?_⟩
  obtain ⟨e', inside, made'⟩ := MapM.mem_of_mem found member
  cases made.symm.trans made'
  have raises : (t.albumTracks pid albid).mapM trackNumber = none := by
    rw [MapM.eq_none_iff]
    exact ⟨e, perm.symm.subset inside, same.trans lacking⟩
  rw [Tagged.trackentriesforalbum_eq, renumber_none raises] at listed_album
  cases listed_album

end Albums

end TagTree

end Upmpdcli.Uprcl
