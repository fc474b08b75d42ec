import Upmpdcli.Cdplugins.Uprcl.FoldersBrowse
import Upmpdcli.Cdplugins.Uprcl.TagsIds
import Upmpdcli.Cdplugins.Uprcl.TagsViewExact

set_option autoImplicit false

/- The object ids of the tracks in the tree of the folders and in its Tag View, and which ids
lead back to what is listed. -/
namespace Upmpdcli.Uprcl

/-- When folders were hidden, in microseconds, and their object ids. -/
abbrev Hidden := List (Nat × Str)

/-- `hidden` and the counts of the statements. -/
structure ViewState where
  hidden : Hidden := []
  cache : StmtCache := {}

/-- The loop of `browseFolder`: what is left of `hidden`, and whether the folder is there. -/
def stillHidden (now : Nat) (ppid : Str) : Hidden → Hidden × Bool
  | [] => ([], false)
  | (since, id) :: rest =>
      if since + 2000000 ≤ now then ([], false)
      else if id = ppid then ((since, id) :: rest, true)
      else
        let (kept, found) := stillHidden now ppid rest
        ((since, id) :: kept, found)

/-- `browseFolder`, which does not look at the flag. -/
def TagTree.browseFolder (t : TagTree) (s : ViewState) (now : Nat) (pid pthremain folder : Str) :
    ViewState × Option (List Entry) :=
  match pthremain.splitOn '$' with
  | [] | [_] => (s, some [])
  | [_, _] =>
      (s, if folder = [] then none else
        some [direntry (pid ++ "$hchide".toList) pid ">> Hide Contents".toList,
          direntry (pid ++ "$hctags".toList) pid (basename folder)])
  | [_, _, value] =>
      let ppid := List.intercalate ['$'] (pid.splitOn '$').dropLast
      if value = "hchide".toList then ({ s with hidden := (now, ppid) :: s.hidden }, some [])
      else
        let (hidden, found) := stillHidden now ppid s.hidden
        ({ s with hidden },
          if found then some [] else t.rootentries (pid ++ "$".toList) folder)
  | _ :: _ :: _ :: qpath =>
      let (cache, reply) := t.dobrowse s.cache pid qpath folder 0 0
      ({ s with cache }, reply.map Reply.entries)

namespace Folders

variable (t : Folders)

/-- `dirpath` of an object id. -/
def dirpathOf (objid : Str) : Option Str :=
  match t.objidtoidx objid with
  | none => some []
  | some (isitem, diridx, _) => if isitem then none else t.dirpath diridx

/-- `browse` with the flag for the metadata, and `_browsemeta`. The outer `none` is an error. For
the index -1 nothing is returned. -/
def browsemeta (env : Env) (opts : BrowseOpts) (pid : Str) : Option (Option (List Entry)) := do
  let (isitem, idx, pthremain) ← t.objidtoidx pid
  if pthremain ≠ [] then
    if "$tagview.0".toList.isPrefixOf pthremain then (opts.browseFolder pid pthremain).map some
    else none
  else if isitem = false then none
  else if idx = -1 then some none
  else do
    let doc ← t.docforidx idx
    let e ← rcldoctoentry env (itemId idx) pid doc
    return some [e]

end Folders

/-- The tree of the folders and the tree of the tags, with the options of the requests. -/
structure Trees where
  opts : Folders.BrowseOpts := {}
  folders : Folders
  tags : TagTree

/-- Where children are browsed: an id of the tree of the tags with an offset and a count, or one
of the tree of the folders. -/
inductive Place
  | tags (path : Str) (offset count : Nat)
  | folders (pid : Str)

namespace Trees

variable (trees : Trees) (s : ViewState) (now : Nat)

/-- The Tag View comes out of the tree of the tags. -/
def options : Folders.BrowseOpts :=
  { trees.opts with
    browseFolder := fun pid pthremain =>
      (trees.folders.dirpathOf pid).bind fun folder =>
        (trees.tags.browseFolder s now pid pthremain folder).2 }

def children : Place → Option (List Entry)
  | .tags path offset count =>
      (trees.tags.browse s.cache (objPrefix ++ path) offset count).2.map Reply.entries
  | .folders pid => trees.folders.browse trees.tags.env (trees.options s now) pid

def metadata (objid : Str) : Place → Option (Option (List Entry))
  | .tags .. => (trees.tags.browsemeta s.cache objid).map some
  | .folders _ => trees.folders.browsemeta trees.tags.env (trees.options s now) objid

/-- The id is none of a document. -/
def IsContainer : Place → Prop
  | .tags .. => True
  | .folders pid => ∀ idx, trees.folders.objidtoidx pid ≠ some (true, idx, [])

/-- A metadata browse of the id of an entry answers with one entry, which has the same address,
title and parent. -/
def Resolves (place : Place) (e : Entry) : Prop :=
  ∃ objid e', e.lookup "id" = some objid ∧ trees.metadata s now objid place = some (some [e']) ∧
    ∀ key ∈ ["uri", "tt", "pid"], e'.lookup key = e.lookup key

end Trees

namespace TagTree

variable {t : TagTree} {s : ViewState} {now : Nat} {pid pthremain folder : Str}
  {entries : List Entry} {e : Entry}

theorem rootentries_spec (made : t.rootentries pid folder = some entries) (member : e ∈ entries) :
    isct e = true ∧ e.lookup "pid" = some pid := by
  simp only [rootentries, bind, Option.bind_eq_some_iff] at made
  obtain ⟨rows, -, subqs, -, tags, made_tags, same⟩ := made
  cases same
  rcases List.mem_cons.mp member with rfl | member
  · exact ⟨isct_direntry .., rfl⟩
  rcases List.mem_cons.mp member with rfl | member
  · exact ⟨isct_direntry .., rfl⟩
  · obtain ⟨tt, -, made_tag⟩ := MapM.mem_of_eq_some made_tags member
    obtain ⟨shown, -, rfl⟩ := Option.map_eq_some_iff.mp made_tag
    exact ⟨isct_direntry .., rfl⟩

/-- A container of the Tag View has the id which is browsed for its parent, with a dollar in the
root of the tags. The id of an item is longer than the one of its parent. -/
theorem browseFolder_spec (made : (t.browseFolder s now pid pthremain folder).2 = some entries)
    (member : e ∈ entries) :
    isct e = true ∧
        (e.lookup "pid" = some pid ∨ e.lookup "pid" = some (pid ++ "$".toList)) ∨
      isct e = false ∧ e.lookup "pid" = some pid ∧
        ∃ objid, e.lookup "id" = some objid ∧ pid.length < objid.length := by
  have of_listed {kind : Str} (listed : t.Listed pid kind entries) :
      isct e = true ∧
          (e.lookup "pid" = some pid ∨ e.lookup "pid" = some (pid ++ "$".toList)) ∨
        isct e = false ∧ e.lookup "pid" = some pid ∧
          ∃ objid, e.lookup "id" = some objid ∧ pid.length < objid.length := by
    rcases listed e member with container | ⟨n, track⟩
    · exact .inl ⟨container.type, .inl container.parent⟩
    · have digits := List.length_pos_of_ne_nil (Text.str_ne_nil n)
      refine .inr ⟨track.ids.2.2, track.ids.1, _, track.ids.2.1, ?_⟩
      simp only [List.length_append]
      omega
  unfold browseFolder at made
  split at made
  · cases made
    cases member
  · cases made
    cases member
  · dsimp only at made
    split at made
    · cases made
    · cases made
      rcases List.mem_cons.mp member with rfl | member
      · exact .inl ⟨isct_direntry .., .inl rfl⟩
      · rw [List.mem_singleton.mp member]
        exact .inl ⟨isct_direntry .., .inl rfl⟩
  · dsimp only at made
    split at made
    · cases made
      cases member
    · dsimp only at made
      split at made
      · cases made
        cases member
      · obtain ⟨type, parent⟩ := rootentries_spec made member
        exact .inl ⟨type, .inr parent⟩
  · obtain ⟨reply, replied, rfl⟩ := Option.map_eq_some_iff.mp made
    rcases listed_dobrowse replied with listed | ⟨-, listed⟩
    · exact of_listed listed
    · exact of_listed listed

end TagTree

namespace Folders

variable {t : Folders} {env : Env} {opts : BrowseOpts} {pid : Str} {idx : Int}
  {entries : List Entry} {e : Entry}

/-- An item of a directory has the id of its document. -/
theorem browseDir_item (made : t.browseDir env opts pid idx = some entries) (member : e ∈ entries)
    (item : isct e = false) :
    e.lookup "pid" = some pid ∧ ∃ docidx, e.lookup "id" = some (itemId docidx) := by
  have of_entry {entry : Name × Ids} {found : List Entry}
      (turn : t.browseEntry env pid entry = some found) (inside : e ∈ found) :
      e.lookup "pid" = some pid ∧ ∃ docidx, e.lookup "id" = some (itemId docidx) := by
    obtain ⟨nm, diridx, docidx⟩ := entry
    unfold browseEntry at turn
    dsimp only at turn
    split at turn
    · cases turn
      cases inside
    · split at turn
      · simp only [bind, Option.bind_eq_some_iff] at turn
        obtain ⟨dir, -, turn⟩ := turn
        split at turn
        · cases turn
          cases inside
        · simp only [Option.bind_eq_some_iff] at turn
          obtain ⟨arturi, -, name, -, turn⟩ := turn
          cases turn
          rw [List.mem_singleton.mp inside, TagTree.isct_direntry] at item
          cases item
      · split at turn
        · cases turn
          cases inside
        · simp only [bind, Option.bind_eq_some_iff] at turn
          obtain ⟨doc, -, made_entry, entry_made, turn⟩ := turn
          split at turn
          · cases turn
            cases inside
          · rename_i filled
            cases turn
            obtain ⟨id, parent⟩ := rcldoctoentry_ids entry_made filled
            rw [List.mem_singleton.mp inside]
            exact ⟨parent, docidx, id⟩
  have of_found {found : List (List Entry)} {dir : Dir}
      (all : dir.mapM (t.browseEntry env pid) = some found) (inside : e ∈ found.flatten) :
      e.lookup "pid" = some pid ∧ ∃ docidx, e.lookup "id" = some (itemId docidx) := by
    obtain ⟨part, of_found, inside⟩ := List.mem_flatten.mp inside
    obtain ⟨entry, -, turn⟩ := MapM.mem_of_eq_some all of_found
    exact of_entry turn inside
  simp only [browseDir, bind, Option.bind_eq_some_iff] at made
  obtain ⟨dir, -, found, all, made⟩ := made
  have of_entries (inside : e ∈ if idx ∈ t.playlists.map Int.ofNat then found.flatten
      else found.flatten.mergeSort fun e1 e2 => cmpentries opts e1 e2 ≠ .gt) :
      e.lookup "pid" = some pid ∧ ∃ docidx, e.lookup "id" = some (itemId docidx) := by
    split at inside
    · exact of_found all inside
    · exact of_found all ((List.mergeSort_perm _ _).subset inside)
  have of_view {arturi : Option Str} (same : entries =
      direntry (pid ++ "$tagview.0".toList) pid ">> Tag View".toList arturi ::
        if idx ∈ t.playlists.map Int.ofNat then found.flatten
        else found.flatten.mergeSort fun e1 e2 => cmpentries opts e1 e2 ≠ .gt) :
      e.lookup "pid" = some pid ∧ ∃ docidx, e.lookup "id" = some (itemId docidx) := by
    rw [same] at member
    rcases List.mem_cons.mp member with rfl | member
    · rw [TagTree.isct_direntry] at item
      cases item
    · exact of_entries member
  split at made
  · split at made
    · obtain ⟨arturi, -, made⟩ := Option.bind_eq_some_iff.mp made
      exact of_view (Option.some.inj made).symm
    · exact of_view (Option.some.inj made).symm
  · cases made
    exact of_entries member

/-- The id of a directory has a letter which the ones of documents have not. -/
theorem objidtoidx_cases {isitem : Bool} {rest : Str}
    (found : t.objidtoidx pid = some (isitem, idx, rest)) (no_item : isitem = false) :
    pid = idprefix ∨ ∃ behind, pid = idprefix ++ '$' :: 'd' :: behind := by
  unfold objidtoidx at found
  split at found
  · cases found
  · rename_i fine
    rw [not_or, not_not] at fine
    obtain ⟨behind, rfl⟩ := List.isPrefixOf_iff_prefix.mp fine.1
    rw [List.drop_left] at found
    split at found
    · exact .inl (List.append_nil _)
    · rename_i kind rest'
      by_cases is_dir : kind = 'd'
      · rw [is_dir]
        exact .inr ⟨_, rfl⟩
      · rw [if_neg is_dir] at found
        split at found
        · simp only [bind, Option.bind_some, Option.bind_eq_some_iff] at found
          obtain ⟨number, -, found⟩ := found
          have same := (Option.ite_none_left_eq_some.mp found).2
          cases same
          cases no_item
        · cases found
    · cases found

end Folders

namespace Trees

variable {trees : Trees} {s s' : ViewState} {now now' : Nat} {pid objid : Str}
  {entries : List Entry} {e : Entry}

/-- The metadata in the tree of the folders have the id which is asked for as parent. -/
theorem parent_of_metadata {parent : Str}
    (answered : trees.folders.browsemeta trees.tags.env (trees.options s now) objid =
      some (some [e])) (found : e.lookup "pid" = some parent) :
    parent = objid ∨ parent = objid ++ "$".toList := by
  simp only [Folders.browsemeta, bind, Option.bind_eq_some_iff] at answered
  obtain ⟨⟨isitem, idx, rest⟩, -, answered⟩ := answered
  dsimp only at answered
  split at answered
  · split at answered
    · obtain ⟨entries, made, same⟩ := Option.map_eq_some_iff.mp answered
      cases same
      obtain ⟨folder, -, made⟩ := Option.bind_eq_some_iff.mp made
      rcases TagTree.browseFolder_spec made (List.mem_singleton.mpr rfl) with
        ⟨-, own | root⟩ | ⟨-, own, -⟩
      · exact .inl (Option.some.inj (found.symm.trans own))
      · exact .inr (Option.some.inj (found.symm.trans root))
      · exact .inl (Option.some.inj (found.symm.trans own))
    · cases answered
  · split at answered
    · cases answered
    · split at answered
      · cases answered
      · simp only [Option.bind_eq_some_iff] at answered
        obtain ⟨doc, -, made, entry_made, same⟩ := answered
        cases same
        have filled : e ≠ [] := by
          rintro rfl
          cases found
        obtain ⟨-, own⟩ := rcldoctoentry_ids entry_made filled
        exact .inl (Option.some.inj (found.symm.trans own))

/-- No item of the tree of the folders or of its Tag View is found with its parent. -/
theorem not_resolves_folders (container : trees.IsContainer (.folders pid))
    (listed : trees.children s now (.folders pid) = some entries) (member : e ∈ entries)
    (item : isct e = false) : ¬ trees.Resolves s' now' (.folders pid) e := by
  rintro ⟨objid, e', has_id, answered, same⟩
  have differs (parent : e.lookup "pid" = some pid) : pid = objid ∨ pid = objid ++ "$".toList :=
    parent_of_metadata answered ((same "pid" (by simp)).trans parent)
  simp only [children, Folders.browse, bind, Option.bind_eq_some_iff] at listed
  obtain ⟨⟨isitem, idx, rest⟩, found, listed⟩ := listed
  dsimp only at listed
  split at listed
  · split at listed
    · obtain ⟨folder, -, made⟩ := Option.bind_eq_some_iff.mp listed
      rcases TagTree.browseFolder_spec made member with ⟨type, -⟩ | ⟨-, parent, own, id, longer⟩
      · rw [type] at item
        cases item
      · cases has_id.symm.trans id
        rcases differs parent with rfl | rfl
        · omega
        · rw [List.length_append] at longer
          omega
    · cases listed
  · rename_i no_rest
    rw [ne_eq, not_not] at no_rest
    subst no_rest
    cases isitem with
    | true => exact container idx found
    | false =>
        obtain ⟨parent, docidx, id⟩ := Folders.browseDir_item listed member item
        cases has_id.symm.trans id
        have letter : Folders.itemId docidx =
            Folders.idprefix ++ '$' :: 'i' :: Text.strInt docidx := by
          rw [Folders.itemId, List.append_assoc]
          rfl
        have inside : '$' :: 'i' :: Text.strInt docidx <+: pid.drop Folders.idprefix.length := by
          rcases differs parent with same | same
          · rw [same, letter, List.drop_left]
          · rw [same, letter, List.append_assoc, List.drop_left]
            exact List.prefix_append _ _
        rcases Folders.objidtoidx_cases found rfl with rfl | ⟨behind, rfl⟩
        · rw [List.drop_length, List.prefix_nil] at inside
          cases inside
        · rw [List.drop_left] at inside
          obtain ⟨more, same⟩ := inside
          rw [List.cons_append, List.cons_append, List.cons.injEq, List.cons.injEq] at same
          exact absurd same.2.1 (by decide)

/-- The list of all the tracks. -/
theorem children_items (trees : Trees) (s : ViewState) (now : Nat) :
    ∃ listed entries, trees.tags.tracks.mapM
        (fun row => trees.tags.trackEntryAs "$i".toList (objPrefix ++ "items".toList) row.docidx) =
          some listed ∧
      trees.children s now (.tags "items".toList 0 0) = some entries ∧ entries.Perm listed ∧
        ∀ e ∈ entries, isct e = false := by
  obtain ⟨listed, found, types⟩ := TagTree.exists_entries (List.Subset.refl trees.tags.tracks)
    "$i".toList (objPrefix ++ "items".toList)
  have rows : ((trees.tags.itemsStmt []).rows.mapM
      (trees.tags.trackEntry (objPrefix ++ "items".toList))) = some listed := by
    rw [Tagged.itemsStmt, if_pos rfl, List.mapM_map]
    exact found
  have perm := List.mergeSort_perm listed fun e1 e2 => cmpitems e1 e2 ≤ 0
  refine ⟨listed, _, found, ?_, perm, fun e member => types e (perm.subset member)⟩
  have replied := @Tagged.browseItems_whole trees.tags.toTagged s.cache
    { folder := [], pid := objPrefix ++ "items".toList, offset := 0, count := 0 } _ rows
    (.inl ⟨rfl, rfl⟩)
  have one : "items".toList.splitOn '$' = ["items".toList] :=
    List.splitOn_eq_singleton (by decide)
  rw [children, TagTree.browse, TagTree.idpath_eq, one, TagTree.dobrowse]
  dsimp only
  rw [if_pos rfl, replied]
  rfl

end Trees

end Upmpdcli.Uprcl
