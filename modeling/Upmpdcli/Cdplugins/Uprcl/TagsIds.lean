import Upmpdcli.Cdplugins.Uprcl.Playlists
import Upmpdcli.Cdplugins.Uprcl.TagsCountOnce
import Upmpdcli.Cdplugins.Uprcl.TagsPages
import Upmpdcli.Cdplugins.Uprcl.TagsView

set_option autoImplicit false

/- The object ids of the tracks in the tree of the tags, and the metadata which they lead to. -/
namespace Upmpdcli.Uprcl

def objPrefix : Str := "0$uprcl$".toList

/-- The path of an object id, without the prefix of the plugin. -/
def idpath (objid : Str) : Str :=
  match Text.find objPrefix objid with
  | some i => objid.take i ++ objid.drop (i + objPrefix.length)
  | none => objid

/-- Where the last element of the id of a track begins, and its number. -/
def itemNumber (objid : Str) : Option (Nat × Str) :=
  match Text.rfind "$i".toList objid with
  | some ipos => some (ipos, objid.drop (ipos + 2))
  | none => (Text.rfind "$*i".toList objid).map fun ipos => (ipos, objid.drop (ipos + 3))

/-- The loop of `_browsemeta`. An entry without an id raises. -/
def withId (objid : Str) : List Entry → Option (List Entry)
  | [] => some []
  | e :: rest =>
      match e.lookup "id" with
      | none => none
      | some id => if id = objid then some [e] else withId objid rest

namespace TagTree

variable (t : TagTree)

/-- `_albumsbrowse`, with what is behind `albums` in the path. -/
def albumsbrowse (pid folder : Str) : (rest : List Str) → Option (List Entry)
  | [] => t.direntriesforalbums pid (t.albumsBelow folder)
  | [albid] => (Text.int albid).bind fun albid => t.trackentriesforpath albid pid
  | _ => none

/-- `_dobrowse`. -/
def dobrowse (cache : StmtCache) (pid : Str) (qpath : List Str) (folder : Str)
    (offset count : Nat) : StmtCache × Option Reply :=
  let whole (entries : Option (List Entry)) :=
    (cache, entries.map fun entries => (Listing.all entries).reply)
  match qpath with
  | [] => (cache, none)
  | elt :: rest =>
      if elt = "items".toList then t.browseItems cache folder pid offset count
      else if elt = "albums".toList then whole (t.albumsbrowse pid folder rest)
      else if elt.head? = some '=' then whole (t.tagsbrowse pid (elt :: rest) folder)
      else (cache, none)

/-- `browse`, of the children. -/
def browse (cache : StmtCache) (pid : Str) (offset count : Nat) : StmtCache × Option Reply :=
  t.dobrowse cache pid ((idpath pid).splitOn '$') [] offset count

/-- `_browsemeta`. -/
def browsemeta (cache : StmtCache) (objid : Str) : Option (List Entry) :=
  match itemNumber objid with
  | none => some []
  | some (ipos, number) =>
      if objid.drop ipos = "$items".toList ∨ Text.int number = none then some []
      else
        (t.browse cache (objid.take ipos) 0 0).2.bind fun reply => withId objid reply.entries

section Listed

/-- A container whose id is none of a track. -/
structure IsContainer (pid kind : Str) (e : Entry) : Prop where
  type : isct e = true
  parent : e.lookup "pid" = some pid
  id : ∃ id, e.lookup "id" = some id ∧ ∀ n, id ≠ pid ++ kind ++ Text.str n

/-- The entry of a track, which may have another number. -/
def IsTrackAt (pid kind : Str) (n : Nat) (e : Entry) : Prop :=
  ∃ row ∈ t.tracks, row.docidx = n ∧ ∃ e₀, t.trackEntryAs kind pid n = some e₀ ∧
    unnumbered e = unnumbered e₀

/-- The entries are containers, and tracks with ids of this kind. -/
def Listed (pid kind : Str) (entries : List Entry) : Prop :=
  ∀ e ∈ entries, IsContainer pid kind e ∨ ∃ n, t.IsTrackAt pid kind n e

end Listed

section Entries

variable {t} {pid kind : Str} {n : Nat} {e : Entry} {entries entries' : List Entry}

theorem lookup_unnumbered {key : String} (other : key ≠ numberKey) (e : Entry) :
    (unnumbered e).lookup key = e.lookup key := by
  induction e with
  | nil => rfl
  | cons entry rest ih =>
      unfold unnumbered at ih ⊢
      by_cases here : entry.1 = numberKey
      · rw [List.filter_cons_of_neg (by simp [here]), ih,
          Dict.lookup_cons_of_ne (ne_of_eq_of_ne here (Ne.symm other))]
      · rw [List.filter_cons_of_pos (by simp [here])]
        by_cases found : entry.1 = key
        · obtain ⟨k, v⟩ := entry
          cases found
          simp
        · rw [Dict.lookup_cons_of_ne found, Dict.lookup_cons_of_ne found, ih]

theorem lookup_of_unnumbered {e' : Entry} (same : unnumbered e = unnumbered e') {key : String}
    (other : key ≠ numberKey) : e.lookup key = e'.lookup key := by
  rw [← lookup_unnumbered other, same, lookup_unnumbered other]

/-- The ids of a track. -/
theorem trackEntryAs_ids {e₀ : Entry} (row : Track) (member : row ∈ t.tracks)
    (made : t.trackEntryAs kind pid row.docidx = some e₀) :
    e₀.lookup "pid" = some pid ∧ e₀.lookup "id" = some (pid ++ kind ++ Text.str row.docidx) ∧
      isct e₀ = false := by
  obtain ⟨-, e', -, made', type, -⟩ := trackEntryAs_spec member kind pid
  cases made.symm.trans made'
  obtain ⟨doc, there, track, -⟩ := t.listable row member
  simp only [isTrack, Bool.decide_and, Bool.and_eq_true, List.contains_iff_mem] at track
  rw [trackEntryAs, there, Option.bind_some, rcldoctoentry_eq (of_decide_eq_true track.1)] at made
  obtain ⟨li, -, rfl⟩ := Option.map_eq_some_iff.mp made
  exact ⟨rfl, rfl, type⟩

theorem IsTrackAt.ids (track : t.IsTrackAt pid kind n e) :
    e.lookup "pid" = some pid ∧ e.lookup "id" = some (pid ++ kind ++ Text.str n) ∧
      isct e = false := by
  obtain ⟨row, member, rfl, e₀, made, same⟩ := track
  obtain ⟨parent, id, type⟩ := trackEntryAs_ids row member made
  refine ⟨?_, ?_, ?_⟩
  · rw [lookup_of_unnumbered same (by decide), parent]
  · rw [lookup_of_unnumbered same (by decide), id]
  · rw [isct, lookup_of_unnumbered same (by decide)]
    exact type

/-- Two entries of a track differ in nothing but the number. -/
theorem IsTrackAt.unique {e' : Entry} (track : t.IsTrackAt pid kind n e)
    (track' : t.IsTrackAt pid kind n e') : unnumbered e = unnumbered e' := by
  obtain ⟨-, -, -, e₀, made, same⟩ := track
  obtain ⟨-, -, -, e₁, made', same'⟩ := track'
  cases made.symm.trans made'
  rw [same, same']

theorem Listed.append (listed : t.Listed pid kind entries) (listed' : t.Listed pid kind entries') :
    t.Listed pid kind (entries ++ entries') := by
  intro e member
  rcases List.mem_append.mp member with first | second
  · exact listed e first
  · exact listed' e second

theorem Listed.perm (listed : t.Listed pid kind entries) (perm : entries'.Perm entries) :
    t.Listed pid kind entries' := fun e member => listed e (perm.subset member)

/-- The entries of tracks of the table. -/
theorem listed_of_mapM {docids : List Nat} (inside : ∀ n ∈ docids, ∃ row ∈ t.tracks, row.docidx = n)
    (made : docids.mapM (t.trackEntryAs kind pid) = some entries) : t.Listed pid kind entries := by
  intro e member
  obtain ⟨n, of_docids, made⟩ := MapM.mem_of_eq_some made member
  obtain ⟨row, of_tracks, same⟩ := inside n of_docids
  exact .inr ⟨n, row, of_tracks, same, e, made, rfl⟩

/-- The id of a container differs behind the dollar. -/
theorem isContainer_of_behind (k : Char) (behind : Str) {rest : Str} (type : isct e = true)
    (parent : e.lookup "pid" = some pid) (id : e.lookup "id" = some (pid ++ '$' :: behind))
    (other : behind.head? ≠ some k) : IsContainer pid ('$' :: k :: rest) e := by
  refine ⟨type, parent, _, id, fun n same => ?_⟩
  rw [List.append_assoc, List.append_right_inj, List.cons_append, List.cons_append,
    List.cons.injEq] at same
  rw [same.2] at other
  exact other rfl

theorem isContainer_direntry (k : Char) (behind : Str) {rest id title artist date upnpclass : Str}
    {arturi : Option Str} (same : id = pid ++ '$' :: behind) (other : behind.head? ≠ some k) :
    IsContainer pid ('$' :: k :: rest) (direntry id pid title arturi artist date upnpclass) :=
  isContainer_of_behind k behind (isct_direntry ..) rfl (same ▸ rfl) other

/-- The albums are shown under their numbers. -/
theorem listed_direntriesforalbums {k : Char} {rest : Str} (no_digit : k.isDigit = false)
    {rows : List Album} (made : t.direntriesforalbums pid rows = some entries) :
    t.Listed pid ('$' :: k :: rest) entries := by
  obtain ⟨artists, -, rfl⟩ := Option.map_eq_some_iff.mp made
  intro e member
  obtain ⟨alb, -, rfl⟩ := List.mem_map.mp member
  refine .inl (isContainer_direntry k (Text.str alb.album_id) (by simp) fun head => ?_)
  have digit := Text.isDigit_of_mem_str (List.mem_of_mem_head? head)
  rw [no_digit] at digit
  cases digit

/-- New numbers change nothing else. -/
theorem renumber_unnumbered {tracks : List Entry} {tno : Option Int}
    (made : renumber tno tracks = some entries) :
    entries.map unnumbered = tracks.map unnumbered := by
  cases numbers : tracks.mapM trackNumber with
  | none =>
      rw [renumber_none numbers] at made
      cases made
  | some read =>
      obtain ⟨renumbered, found, same, -⟩ := renumber_spec numbers tno
      cases made.symm.trans found
      exact same

theorem listed_trackentriesforalbum {albid : Nat}
    (made : t.trackentriesforalbum albid pid = some entries) :
    t.Listed pid "$i".toList entries := by
  rw [Tagged.trackentriesforalbum_eq] at made
  intro e member
  have inside : unnumbered e ∈ (t.albumTracks pid albid).map unnumbered := by
    rw [← renumber_unnumbered made]
    exact List.mem_map_of_mem member
  obtain ⟨track, of_album, same⟩ := List.mem_map.mp inside
  obtain ⟨disc, -, of_disc⟩ := List.mem_flatMap.mp of_album
  obtain ⟨-, listed, found, perm⟩ := t.discEntries_eq pid disc
  obtain ⟨n, of_rows, made_track⟩ := MapM.mem_of_eq_some found (perm.subset of_disc)
  obtain ⟨row, selected, rfl⟩ := List.mem_map.mp of_rows
  exact .inr ⟨row.docidx, row, List.mem_of_mem_filter selected, rfl, track, made_track, same.symm⟩

theorem listed_trackentriesforpath {albid : Int}
    (made : t.trackentriesforpath albid pid = some entries) :
    t.Listed pid "$i".toList entries := by
  unfold trackentriesforpath at made
  split at made
  · cases made
  · split at made
    · cases made
      exact fun e member => nomatch member
    · exact listed_trackentriesforalbum made

theorem subset_of_selectRows {s : Selection} {rows : List Track}
    (selected : t.selectRows s = some rows) : rows ⊆ t.tracks := by
  unfold selectRows rowsBelow at selected
  simp only [bind, Option.bind_eq_some_iff, Option.map_eq_some_iff] at selected
  obtain ⟨below, ⟨stored, has_table, rfl⟩, joined⟩ := selected
  have stored_eq : t.tracks = stored := by rw [t.tracks_eq, has_table, Option.getD_some]
  split at joined
  · refine Fold.foldlM_keeps (I := fun rows => rows ⊆ t.tracks) ?_ ?_ joined
    · intro rows choice rows' before turn
      obtain ⟨pairs, -, rfl⟩ := Option.map_eq_some_iff.mp turn
      exact fun row member => before (Junction.mem_withValue.mp member).1
    · rw [stored_eq]
      split
      · exact List.Subset.refl stored
      · exact List.filter_subset_self stored
  · cases joined

theorem inside_of_rows {rows : List Track} (inside : rows ⊆ t.tracks) :
    ∀ n ∈ rows.map Track.docidx, ∃ row ∈ t.tracks, row.docidx = n := by
  intro n member
  obtain ⟨row, of_rows, same⟩ := List.mem_map.mp member
  exact ⟨row, inside of_rows, same⟩

theorem inside_of_docidsforsel {s : Selection} {docids : List Nat}
    (selected : t.docidsforsel s = some docids) :
    ∀ n ∈ docids, ∃ row ∈ t.tracks, row.docidx = n := by
  obtain ⟨rows, found, rfl⟩ := Option.map_eq_some_iff.mp selected
  refine inside_of_rows fun row member => ?_
  exact subset_of_selectRows found ((List.mergeSort_perm _ _).subset member)

theorem perm_of_sortEntries {lower : Str → Str}
    (sorted : sortEntries lower entries' = some entries) :
    entries.Perm entries' := by
  unfold sortEntries at sorted
  split at sorted
  · cases sorted
    exact List.mergeSort_perm _ _
  · cases sorted

theorem perm_of_sortItems (sorted : sortItems entries' = some entries) :
    entries.Perm entries' := by
  cases sorted
  exact List.mergeSort_perm _ _

/-- An id which ends with a letter. -/
theorem isContainer_completeAlbum {id : Str} {c : Char} (last : id.getLast? = some c)
    (no_digit : c.isDigit = false) : IsContainer pid kind (completeAlbum id pid) := by
  refine ⟨isct_direntry .., rfl, id, rfl, fun n same => ?_⟩
  rw [same, List.getLast?_append_of_ne_nil _ (Text.str_ne_nil n)] at last
  have digit := Text.isDigit_of_mem_str (List.mem_of_getLast? last)
  rw [no_digit] at digit
  cases digit

theorem listed_albumSelection {s : Selection} {albid : Int}
    (made : t.albumSelection pid s albid = some entries) : t.Listed pid "$i".toList entries := by
  simp only [albumSelection, bind, Option.bind_eq_some_iff] at made
  obtain ⟨rows, has_table, made⟩ := made
  split at made
  · cases made
  · simp only [Option.bind_eq_some_iff] at made
    obtain ⟨docids, -, tracks, made_tracks, sorted, in_order, made⟩ := made
    have stored_eq : t.tracks = rows := by rw [t.tracks_eq, has_table, Option.getD_some]
    have listed : t.Listed pid "$i".toList sorted := by
      refine (listed_of_mapM (inside_of_rows ?_) made_tracks).perm (perm_of_sortEntries in_order)
      intro row member
      rw [stored_eq]
      exact List.mem_of_mem_filter (List.mem_of_mem_filter member)
    split at made
    · cases made
      intro e member
      rcases List.mem_cons.mp member with rfl | member
      · refine .inl (isContainer_completeAlbum (c := 'a') ?_ (by decide))
        rw [List.getLast?_append_of_ne_nil _ (by decide)]
        rfl
      · exact listed e member
    · cases made
      exact listed

theorem listed_tagsbrowsealbums {s : Selection} {rest : List Str}
    (made : t.tagsbrowsealbums pid s rest = some entries) :
    t.Listed pid "$i".toList entries := by
  match rest, made with
  | [], made =>
      obtain ⟨albids, -, made⟩ := Option.bind_eq_some_iff.mp made
      exact listed_direntriesforalbums (by decide) made
  | [albid], made =>
      obtain ⟨number, -, made⟩ := Option.bind_eq_some_iff.mp made
      exact listed_albumSelection made
  | [albid, _], made =>
      obtain ⟨number, -, made⟩ := Option.bind_eq_some_iff.mp made
      exact listed_trackentriesforpath made
  | _ :: _ :: _ :: _, made =>
      cases made
      exact fun e member => nomatch member

theorem listed_restOfAlbum {id : Str} {albid count : Nat} {c : Char}
    (made : t.restOfAlbum id pid albid count = some entries) (last : id.getLast? = some c)
    (no_digit : c.isDigit = false) : ∀ e ∈ entries, IsContainer pid kind e := by
  simp only [restOfAlbum, bind, Option.bind_eq_some_iff] at made
  obtain ⟨tlist, -, made⟩ := made
  intro e member
  split at made
  · cases made
    rw [List.mem_singleton.mp member]
    exact isContainer_completeAlbum last no_digit
  · cases made
    cases member

theorem listed_tagsbrowseitems {s : Selection} (made : t.tagsbrowseitems pid s = some entries) :
    t.Listed pid "$i".toList entries := by
  unfold tagsbrowseitems at made
  obtain ⟨rows, selected, made⟩ := Option.bind_eq_some_iff.mp made
  obtain ⟨albids, -, made⟩ := Option.bind_eq_some_iff.mp made
  have behind {rest : List Entry} (containers : ∀ e ∈ rest, IsContainer pid "$i".toList e)
      (made : (((rows.map Track.docidx).mapM (t.trackEntryAs "$i".toList pid)).bind fun tracks =>
        (sortItems tracks).bind fun sorted => some (rest ++ sorted)) = some entries) :
      t.Listed pid "$i".toList entries := by
    obtain ⟨tracks, made_tracks, made⟩ := Option.bind_eq_some_iff.mp made
    obtain ⟨sorted, in_order, made⟩ := Option.bind_eq_some_iff.mp made
    cases made
    have listed := listed_of_mapM (inside_of_rows (subset_of_selectRows selected)) made_tracks
    exact Listed.append (fun e member => .inl (containers e member))
      (listed.perm (perm_of_sortItems in_order))
  dsimp only at made
  split at made
  · obtain ⟨rest, made_rest, made⟩ := Option.bind_eq_some_iff.mp made
    refine behind (listed_restOfAlbum (c := 'a') made_rest ?_ (by decide)) made
    rw [itemsRestId, List.getLast?_append_of_ne_nil _ (by decide)]
    rfl
  · exact behind (fun _ member => absurd member List.not_mem_nil) made

theorem listed_contentAlbums {count : Nat} {albids : List Nat} {displays : Bool}
    (made : t.contentAlbums pid count albids = some (entries, displays)) :
    ∀ e ∈ entries, IsContainer pid "$*i".toList e := by
  unfold contentAlbums at made
  split at made
  · cases made
    exact fun e member => nomatch member
  · rename_i albid
    simp only [bind, Option.bind_eq_some_iff] at made
    obtain ⟨rest, made_rest, made⟩ := made
    split at made
    · cases made
      refine listed_restOfAlbum (c := 'a') made_rest ?_ (by decide)
      rw [contentRestId, List.getLast?_append_of_ne_nil _ (by decide)]
      rfl
    · simp only [Option.bind_eq_some_iff] at made
      obtain ⟨el, made_el, made⟩ := made
      split at made
      · cases made
      · cases made
        obtain ⟨artists, -, made_el⟩ := Option.map_eq_some_iff.mp made_el
        intro e member
        rw [List.mem_singleton.mp member]
        have first_mem := List.mem_map.mp (made_el ▸ List.mem_cons_self)
        obtain ⟨alb, -, rfl⟩ := first_mem
        refine isContainer_of_behind '*' ("albums$".toList ++ Text.str albid ++ "$showca".toList)
          ?_ ?_ ?_ (by simp)
        · rw [isct, Dict.lookup_set_of_ne (by decide)]
          exact isct_direntry ..
        · rw [Dict.lookup_set_of_ne (by decide)]
          rfl
        · rw [Dict.lookup_set_self, contentRestId]
          simp
  · cases made
    intro e member
    rw [List.mem_singleton.mp member]
    exact isContainer_direntry '*' "albums".toList rfl (by decide)

theorem listed_browsecontent {s : Selection} (made : t.browsecontent pid s = some entries) :
    t.Listed pid "$*i".toList entries := by
  simp only [browsecontent, bind, Option.bind_eq_some_iff] at made
  obtain ⟨docids, selected, albids, -, subqs, -, ⟨albums, displaytracks⟩, made_albums, made⟩ := made
  have containers := listed_contentAlbums made_albums
  dsimp only at made
  split at made
  · simp only [Option.bind_eq_some_iff] at made
    obtain ⟨tags, made_tags, made⟩ := made
    cases made
    refine Listed.append (fun e member => .inl (containers e member)) fun e member => .inl ?_
    rcases List.mem_cons.mp member with rfl | member
    · exact isContainer_direntry '*' "items".toList rfl (by decide)
    · obtain ⟨tt, -, made_tag⟩ := MapM.mem_of_eq_some made_tags member
      obtain ⟨shown, -, rfl⟩ := Option.map_eq_some_iff.mp made_tag
      exact isContainer_direntry '*' ('=' :: tt) (by simp) (by simp)
  · split at made
    · simp only [Option.bind_eq_some_iff] at made
      obtain ⟨tracks, made_tracks, sorted, in_order, made⟩ := made
      cases made
      exact Listed.append (fun e member => .inl (containers e member))
        ((listed_of_mapM (inside_of_docidsforsel selected) made_tracks).perm
          (perm_of_sortItems in_order))
    · cases made
      exact fun e member => .inl (containers e member)

theorem listed_browsevalues {s : Selection} {col : Str}
    (made : t.browsevalues pid s col = some entries) : t.Listed pid "$i".toList entries := by
  simp only [browsevalues, bind, Option.bind_eq_some_iff] at made
  obtain ⟨rows, -, pairs, -, values, -, made⟩ := made
  split at made
  · cases made
  · cases made
    intro e member
    obtain ⟨entry, -, rfl⟩ := List.mem_map.mp member
    refine .inl (isContainer_direntry 'i' (Text.str (entry.2 + 1)) (by simp) fun head => ?_)
    have digit := Text.isDigit_of_mem_str (List.mem_of_mem_head? head)
    exact absurd digit (by decide)

end Entries

section Path

variable {t} {s s' : Selection} {col : Option Str} {path : List Str}

/-- No number begins with the letter of a track. -/
theorem int_letter {value : Str} (letter : value.head? = some 'i') : Text.int value = none := by
  cases value with
  | nil => cases letter
  | cons c rest =>
      cases letter
      exact Text.int_eq_none (by decide) (by decide) (by decide) rest

theorem not_special {s s' : Selection} {elt : Str} {rest : List Str} :
    special s elt rest ≠ some (.content s') := by
  unfold special
  split
  · simp
  · split <;> simp

/-- A path to a selection has tags and numbers only. When its values are of different tables, none
of its elements begins with the letter of a track. -/
theorem walk_content (of_col : ∀ tb ∈ col, tb ∈ s.chosen.map Prod.fst)
    (walked : t.walk s col path = some (.content s')) :
    s.chosen <+: s'.chosen ∧
      ((s'.chosen.map Prod.fst).Nodup → ∀ elt ∈ path, elt.head? ≠ some 'i') := by
  fun_induction t.walk s col path with
  | case1 s col =>
      cases walked
      exact ⟨List.prefix_refl _, fun _ _ member => nomatch member⟩
  | case2 s col elt target found =>
      rw [Option.some.injEq] at walked
      exact absurd (walked ▸ found) not_special
  | case3 s col elt found =>
      obtain ⟨tb, -, same⟩ := Option.map_eq_some_iff.mp walked
      cases same
  | case4 s col elt value rest target found =>
      rw [Option.some.injEq] at walked
      exact absurd (walked ▸ found) not_special
  | case5 s col elt value rest found ih =>
      obtain ⟨tb, has_table, walked⟩ := Option.bind_eq_some_iff.mp walked
      obtain ⟨number, has_number, walked⟩ := Option.bind_eq_some_iff.mp walked
      obtain ⟨before, later⟩ := ih tb number (by simp) walked
      refine ⟨(List.prefix_append _ _).trans before, fun distinct => ?_⟩
      rw [List.forall_mem_cons, List.forall_mem_cons]
      refine ⟨fun letter => ?_, fun letter => ?_, later distinct⟩
      · have no_tag : elt.head? ≠ some '=' := by
          rw [letter]
          decide
        rw [column, if_neg no_tag] at has_table
        have twice := distinct.sublist ((before.map Prod.fst).sublist)
        rw [List.map_append, List.nodup_append] at twice
        exact twice.2.2 tb (of_col tb has_table) tb (by simp) rfl
      · rw [int_letter letter] at has_number
        cases has_number

theorem distinct_of_selectRows {rows : List Track} (selected : t.selectRows s = some rows) :
    (s.chosen.map Prod.fst).Nodup := by
  obtain ⟨below, -, joined⟩ := Option.bind_eq_some_iff.mp selected
  split at joined
  · rename_i fine
    exact fine.1
  · cases joined

/-- The tracks of a listing have ids with `$*i` only behind a path of tags and values. -/
theorem listed_tagsbrowse {pid folder : Str} {entries : List Entry}
    (made : t.tagsbrowse pid path folder = some entries) :
    t.Listed pid "$i".toList entries ∨
      (∀ elt ∈ path, elt.head? ≠ some 'i') ∧ t.Listed pid "$*i".toList entries := by
  obtain ⟨target, walked, made⟩ := Option.bind_eq_some_iff.mp made
  cases target with
  | albums s rest => exact .inl (listed_tagsbrowsealbums made)
  | items s => exact .inl (listed_tagsbrowseitems made)
  | values s col => exact .inl (listed_browsevalues made)
  | content s =>
      obtain ⟨docids, selected, -⟩ := Option.bind_eq_some_iff.mp made
      obtain ⟨rows, found, -⟩ := Option.map_eq_some_iff.mp selected
      have none_yet : ∀ tb ∈ (none : Option Str),
          tb ∈ (Selection.mk folder []).chosen.map Prod.fst :=
        fun _ member => nomatch member
      exact .inr ⟨(walk_content none_yet walked).2 (distinct_of_selectRows found),
        listed_browsecontent made⟩

end Path

section Browse

variable {t} {cache : StmtCache} {pid folder : Str} {qpath : List Str} {offset count : Nat}
  {reply : Reply}

theorem rows_inside (folder : Str) :
    ∀ n ∈ (t.itemsStmt folder).rows, ∃ row ∈ t.tracks, row.docidx = n := by
  unfold Tagged.itemsStmt
  split
  · exact inside_of_rows (List.Subset.refl _)
  · exact inside_of_rows (List.filter_subset_self _)

/-- A list of the tracks has entries of its rows, whatever is asked for. -/
theorem subset_of_browseItems {all : List Entry}
    (entries : (t.itemsStmt folder).rows.mapM (t.trackEntry pid) = some all)
    (replied : (t.browseItems cache folder pid offset count).2 = some reply) :
    reply.entries ⊆ all := by
  by_cases whole : t.Whole cache { folder, pid, offset, count }
  · have found := @Tagged.browseItems_whole t.toTagged _ { folder, pid, offset, count } _ entries
      whole
    cases replied.symm.trans found
    exact (List.mergeSort_perm _ _).subset
  · have asked : offset ≠ 0 ∨ count ≠ 0 := by
      have := not_or.mp whole
      dsimp only at this
      omega
    have found := t.browseItems_part whole
    dsimp only at found
    rw [replied] at found
    obtain ⟨rows, ran, made⟩ := Option.bind_eq_some_iff.mp found.symm
    obtain ⟨listed, selected, rfl⟩ := Option.map_eq_some_iff.mp made
    have limits := (Tagged.execute_isSome_iff _ asked).mp (Option.isSome_of_eq_some ran)
    have page := Tagged.execute_eq_page limits.1 ran
    rw [Paging.page, if_neg limits.1] at page
    have part := MapM.take_of_eq_some (MapM.drop_of_eq_some entries offset) count
    rw [← page, selected, Option.some.injEq] at part
    dsimp only
    rw [part]
    exact List.Subset.trans (List.take_subset _ _) (List.drop_subset _ _)

/-- What is listed is listed again, in any state of the counts. -/
theorem relisted (replied : (t.dobrowse cache pid qpath folder offset count).2 = some reply)
    (cache' : StmtCache) :
    ∃ reply', (t.dobrowse cache' pid qpath folder 0 0).2 = some reply' ∧
      reply.entries ⊆ reply'.entries := by
  cases qpath with
  | nil => cases replied
  | cons elt rest =>
      unfold dobrowse at replied ⊢
      dsimp only at replied ⊢
      split at replied
      · rename_i items
        rw [if_pos items]
        obtain ⟨all, entries⟩ := t.toTagged.exists_entries { folder, pid, offset := 0, count := 0 }
        refine ⟨_, @Tagged.browseItems_whole t.toTagged _ { folder, pid, offset := 0, count := 0 } _
          entries (.inl ⟨rfl, rfl⟩), ?_⟩
        exact List.Subset.trans (subset_of_browseItems entries replied)
          (List.mergeSort_perm _ _).symm.subset
      · rename_i no_items
        rw [if_neg no_items]
        split at replied
        · rename_i albums
          rw [if_pos albums]
          exact ⟨reply, replied, List.Subset.refl _⟩
        · rename_i no_albums
          rw [if_neg no_albums]
          split at replied
          · rename_i tag
            rw [if_pos tag]
            exact ⟨reply, replied, List.Subset.refl _⟩
          · cases replied

/-- The ids of the tracks of a listing. -/
theorem listed_dobrowse
    (replied : (t.dobrowse cache pid qpath folder offset count).2 = some reply) :
    t.Listed pid "$i".toList reply.entries ∨
      (∀ elt ∈ qpath, elt.head? ≠ some 'i') ∧ t.Listed pid "$*i".toList reply.entries := by
  cases qpath with
  | nil => cases replied
  | cons elt rest =>
      unfold dobrowse at replied
      dsimp only at replied
      split at replied
      · obtain ⟨all, entries⟩ := t.toTagged.exists_entries { folder, pid, offset := 0, count := 0 }
        have listed : t.Listed pid "$i".toList all := listed_of_mapM (rows_inside folder) entries
        exact .inl fun e member => listed e (subset_of_browseItems entries replied member)
      · split at replied
        · obtain ⟨entries, made, rfl⟩ := Option.map_eq_some_iff.mp replied
          refine .inl ?_
          match rest, made with
          | [], made => exact listed_direntriesforalbums (by decide) made
          | [albid], made =>
              obtain ⟨number, -, made⟩ := Option.bind_eq_some_iff.mp made
              exact listed_trackentriesforpath made
        · split at replied
          · obtain ⟨entries, made, rfl⟩ := Option.map_eq_some_iff.mp replied
            exact listed_tagsbrowse made
          · cases replied

end Browse

section Metadata

variable {t} {kind pid : Str} {n : Nat} {entries : List Entry}

theorem idpath_eq (path : Str) : idpath (objPrefix ++ path) = path := by
  have here : objPrefix.isPrefixOf (objPrefix ++ path) = true :=
    List.isPrefixOf_iff_prefix.mpr (List.prefix_append _ _)
  have found : Text.find objPrefix (objPrefix ++ path) = some 0 := by
    have split : objPrefix ++ path = '0' :: (objPrefix.tail ++ path) := rfl
    rw [split, Text.find, ← split, if_pos here]
  rw [idpath, found]
  simp

theorem drop_behind (pid mark number : Str) :
    (pid ++ mark ++ number).drop (pid.length + mark.length) = number :=
  List.drop_left' List.length_append

theorem no_dollar (n : Nat) : '$' ∉ Text.str n := fun member =>
  absurd (Text.isDigit_of_mem_str member) (by decide)

theorem itemNumber_item (pid : Str) (n : Nat) :
    itemNumber (pid ++ "$i".toList ++ Text.str n) = some (pid.length, Text.str n) := by
  have mark : "$i".toList = '$' :: ['i'] := rfl
  have found : Text.rfind "$i".toList (pid ++ "$i".toList ++ Text.str n) = some pid.length := by
    rw [mark, List.append_assoc]
    exact Text.rfind_append (by simp [no_dollar]) pid
  have number := drop_behind pid "$i".toList (Text.str n)
  have length : "$i".toList.length = 2 := rfl
  rw [length] at number
  rw [itemNumber, found]
  dsimp only
  rw [number]

/-- The id of a track of a selection has no part which is the one of another track. -/
theorem itemNumber_content {path : Str}
    (no_letter : ∀ elt ∈ path.splitOn '$', elt.head? ≠ some 'i') (n : Nat) :
    itemNumber (objPrefix ++ path ++ "$*i".toList ++ Text.str n) =
      some ((objPrefix ++ path).length, Text.str n) := by
  have mark : "$*i".toList = '$' :: ['*', 'i'] := rfl
  have other_mark : "$i".toList = ['$', 'i'] := rfl
  have split : objPrefix ++ path ++ "$*i".toList ++ Text.str n =
      ['0'] ++ '$' :: (['u', 'p', 'r', 'c', 'l'] ++
        '$' :: (path ++ '$' :: (['*', 'i'] ++ Text.str n))) := by
    have starts : objPrefix = ['0', '$', 'u', 'p', 'r', 'c', 'l', '$'] := rfl
    rw [mark, starts]
    simp only [List.append_assoc, List.cons_append, List.nil_append]
  have absent : ¬ "$i".toList <:+: objPrefix ++ path ++ "$*i".toList ++ Text.str n := by
    rw [other_mark, split]
    intro inside
    obtain ⟨piece, member, letter⟩ := Text.exists_piece_of_infix (by decide) inside
    have last : '$' ∉ ['*', 'i'] ++ Text.str n := by simp [no_dollar]
    rw [List.splitOn_append_cons_self, List.splitOn_append_cons_self,
      List.splitOn_append_cons_self, List.splitOn_eq_singleton (by decide),
      List.splitOn_eq_singleton (by decide), List.splitOn_eq_singleton last] at member
    simp only [List.mem_append, List.mem_singleton] at member
    rcases member with rfl | rfl | inside | rfl
    · cases letter
    · cases letter
    · exact no_letter piece inside letter
    · cases letter
  have lacking : Text.rfind "$i".toList (objPrefix ++ path ++ "$*i".toList ++ Text.str n) = none :=
    Text.rfind_eq_none (by decide) absent
  have found : Text.rfind "$*i".toList (objPrefix ++ path ++ "$*i".toList ++ Text.str n) =
      some (objPrefix ++ path).length := by
    rw [mark, List.append_assoc _ ('$' :: ['*', 'i'])]
    exact Text.rfind_append (by simp [no_dollar]) _
  have number := drop_behind (objPrefix ++ path) "$*i".toList (Text.str n)
  have length : "$*i".toList.length = 3 := rfl
  rw [length] at number
  rw [itemNumber, lacking, found]
  dsimp only [Option.map_some]
  rw [number]

theorem withId_eq {objid : Str} (ids : ∀ e ∈ entries, e.lookup "id" ≠ none)
    (there : ∃ e ∈ entries, e.lookup "id" = some objid) :
    ∃ e ∈ entries, e.lookup "id" = some objid ∧ withId objid entries = some [e] := by
  induction entries with
  | nil =>
      obtain ⟨e, member, -⟩ := there
      cases member
  | cons first rest ih =>
      rw [List.forall_mem_cons] at ids
      obtain ⟨id, has_id⟩ := Option.ne_none_iff_exists'.mp ids.1
      rw [withId, has_id]
      dsimp only
      by_cases here : id = objid
      · exact ⟨first, List.mem_cons_self, by rw [has_id, here], if_pos here⟩
      · obtain ⟨e, member, found⟩ := there
        have later : e ∈ rest := by
          refine (List.mem_cons.mp member).resolve_left ?_
          rintro rfl
          rw [has_id, Option.some.injEq] at found
          exact here found
        obtain ⟨e', inside, same, with_id⟩ := ih ids.2 ⟨e, later, found⟩
        exact ⟨e', List.mem_cons_of_mem _ inside, same, by rw [if_neg here, with_id]⟩

theorem Listed.ids (listed : t.Listed pid kind entries) :
    ∀ e ∈ entries, e.lookup "id" ≠ none := by
  intro e member
  rcases listed e member with container | ⟨n, track⟩
  · obtain ⟨id, found, -⟩ := container.id
    rw [found]
    exact Option.some_ne_none id
  · rw [track.ids.2.1]
    exact Option.some_ne_none _

/-- A track of a listing is found by its id. -/
theorem Listed.found {e : Entry} (listed : t.Listed pid kind entries) (member : e ∈ entries)
    (track : t.IsTrackAt pid kind n e) :
    ∃ e', withId (pid ++ kind ++ Text.str n) entries = some [e'] ∧
      unnumbered e' = unnumbered e := by
  obtain ⟨e', inside, id, found⟩ := withId_eq listed.ids ⟨e, member, track.ids.2.1⟩
  refine ⟨e', found, ?_⟩
  rcases listed e' inside with container | ⟨m, track'⟩
  · obtain ⟨own, has_own, other⟩ := container.id
    rw [id, Option.some.injEq] at has_own
    exact absurd has_own.symm (other n)
  · have ids := track'.ids.2.1
    rw [id, Option.some.injEq, List.append_right_inj] at ids
    rw [← Text.str_injective ids] at track'
    exact track'.unique track

/-- The id of a track is none of a list of items. -/
theorem ne_items {mark : Str} (marked : mark = "$i".toList ∨ mark = "$*i".toList) (n : Nat) :
    mark ++ Text.str n ≠ "$items".toList := by
  rcases marked with rfl | rfl
  · intro same
    have number : Text.str n = ['t', 'e', 'm', 's'] := List.append_cancel_left same
    have digit : 't'.isDigit = true := Text.isDigit_of_mem_str (number ▸ List.mem_cons_self)
    exact absurd digit (by decide)
  · intro same
    have second : some '*' = some 'i' := congrArg (fun text => text[1]?) same
    exact absurd second (by decide)

/-- An item which is listed anywhere in the tree is found by its id, as it is listed but for its
number. -/
theorem browsemeta_spec {cache : StmtCache} {path : Str} {offset count : Nat} {reply : Reply}
    {e : Entry} (replied : (t.browse cache (objPrefix ++ path) offset count).2 = some reply)
    (member : e ∈ reply.entries) (item : isct e = false) (cache' : StmtCache) :
    ∃ objid e', e.lookup "id" = some objid ∧ t.browsemeta cache' objid = some [e'] ∧
      unnumbered e' = unnumbered e := by
  unfold browse at replied
  rw [idpath_eq] at replied
  obtain ⟨reply', again, inside⟩ := relisted replied cache'
  have there := inside member
  have found {mark : Str} (marked : mark = "$i".toList ∨ mark = "$*i".toList)
      (listed : t.Listed (objPrefix ++ path) mark reply'.entries)
      (numbered : ∀ n, itemNumber (objPrefix ++ path ++ mark ++ Text.str n) =
        some ((objPrefix ++ path).length, Text.str n)) :
      ∃ objid e', e.lookup "id" = some objid ∧ t.browsemeta cache' objid = some [e'] ∧
        unnumbered e' = unnumbered e := by
    rcases listed e there with container | ⟨n, track⟩
    · rw [container.type] at item
      cases item
    · obtain ⟨e', with_id, same⟩ := listed.found there track
      refine ⟨_, e', track.ids.2.1, ?_, same⟩
      have no_items : ¬ (mark ++ Text.str n = "$items".toList ∨
          Text.int (Text.str n) = none) := by
        rw [Text.int_str, not_or]
        exact ⟨ne_items marked n, Option.some_ne_none _⟩
      rw [browsemeta, numbered]
      dsimp only
      rw [List.append_assoc _ mark, List.drop_left, if_neg no_items, List.take_left, browse,
        idpath_eq, again, Option.bind_some, ← List.append_assoc, with_id]
  rcases listed_dobrowse again with listed | ⟨no_letter, listed⟩
  · exact found (.inl rfl) listed (itemNumber_item _)
  · exact found (.inr rfl) listed (itemNumber_content no_letter)

end Metadata

end TagTree

end Upmpdcli.Uprcl
