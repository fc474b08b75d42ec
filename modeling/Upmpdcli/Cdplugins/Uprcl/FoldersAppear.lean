import Upmpdcli.Cdplugins.Uprcl.FoldersBrowse
import Upmpdcli.Cdplugins.Uprcl.FoldersWellFormed

set_option autoImplicit false

/- Where a document is in the finished tree: in one directory only, which the elements of its path
lead to. -/
namespace Upmpdcli.Uprcl.Folders

/-- A directory has an entry for a document, which is not the one for the directory itself. Those
of the lines of a playlist, whose names are bytes, do not count. -/
def Enters (t : Folders) (docidx k : Nat) (elt : Str) : Prop :=
  ∃ dir ids, t.dirvec[k]? = some dir ∧ dir.lookup (.text elt) = some ids ∧
    ids.2 = (docidx : Int) ∧ ids.1 ≠ (k : Int)

/-- The directory which some elements lead to, from another one. -/
def follow (t : Folders) : List Str → Nat → Option Nat
  | [], k => some k
  | elt :: rest, k => do
      let dir ← t.dirvec[k]?
      let ids ← dir.lookup (.text elt)
      if 0 ≤ ids.1 then follow t rest ids.1.toNat else none

/-- The document is listed once, at the end of the elements below the entry of its top
directory. -/
def Appears (t : Folders) (docidx : Nat) (top : Str) (elements : List Str) : Prop :=
  ∃ (root : Dir) (first k : Nat) (front : List Str) (elt : Str),
    t.dirvec[0]? = some root ∧ root.lookup (.text top) = some ((first : Int), -1) ∧
      elements = front ++ [elt] ∧ t.follow front first = some k ∧ t.Enters docidx k elt ∧
      ∀ k' elt', t.Enters docidx k' elt' → k' = k ∧ elt' = elt

section Places

variable {tops : List Str} {t t' : Folders} {locs : List Loc} {owner : List (Loc × Nat)}
  {lists : List Loc} {marks : Marks} {loc : Loc} {k : Nat}

/-- The elements lead through the directories of their places. The table may be another one where
these are the same. -/
theorem Represents.follow_eq (rep : Represents tops t locs owner lists marks)
    (elements : List Str) (here : loc ∈ locs)
    (dirs : ∀ l ∈ visited loc elements, l ∈ locs) (last : target loc elements ∈ locs)
    (same : ∀ l ∈ visited loc elements,
      t'.dirvec[locs.idxOf l]? = t.dirvec[locs.idxOf l]?) :
    t'.follow elements (locs.idxOf loc) = some (locs.idxOf (target loc elements)) := by
  induction elements generalizing loc with
  | nil => rfl
  | cons elt rest ih =>
      rw [visited, List.forall_mem_cons] at dirs same
      have next : step loc elt ∈ locs := by
        cases rest with
        | nil => exact last
        | cons other rest => exact dirs.2 _ List.mem_cons_self
      obtain ⟨dir, there, -, dir_of⟩ := rep.dir_at (List.getElem?_idxOf here)
      obtain ⟨d, found⟩ := rep.lookup_step (List.getElem?_idxOf here) dir_of next
      rw [follow, same.1, there]
      simp only [bind, Option.bind_some, found]
      rw [if_pos (Int.natCast_nonneg _), Int.toNat_natCast]
      exact ih next dirs.2 last same.2

/-- The entries for documents are those of their places. -/
theorem Represents.owner_of_enters (rep : Represents tops t locs owner lists marks) {docidx : Nat}
    {elt : Str} (listed : t.Enters docidx k elt) :
    ∃ loc, locs[k]? = some loc ∧ owner.lookup (loc ++ [elt]) = some docidx := by
  obtain ⟨dir, ids, there, found, is_doc, other⟩ := listed
  have inside := (List.getElem?_eq_some_iff.mp there).1
  rw [rep.size] at inside
  have at_k := List.getElem?_eq_getElem inside
  have dir_of := rep.dirs k _ dir at_k there
  refine ⟨_, at_k, ?_⟩
  by_cases up : elt = "..".toList
  · rw [up, show Name.text "..".toList = dotdot from rfl, dir_of.father] at found
    cases found
    cases is_doc
  · by_cases self : elt = ".".toList ∧ 2 ≤ locs[k].length
    · obtain ⟨d, itself⟩ := dir_of.self self.2
      rw [self.1, show Name.text ".".toList = dot from rfl, itself] at found
      cases found
      exact absurd rfl other
    · have names : Names locs[k] elt := ⟨up, fun dot => by
        by_contra deep
        exact self ⟨dot, by omega⟩⟩
      rw [dir_of.lookup_names names, idsOf] at found
      have owned : docId (owner.lookup (locs[k] ++ [elt])) = (docidx : Int) →
          owner.lookup (locs[k] ++ [elt]) = some docidx := by
        intro same
        cases has : owner.lookup (locs[k] ++ [elt]) with
        | none =>
            rw [has] at same
            cases same
        | some i =>
            rw [has] at same
            exact congrArg some (Int.natCast_inj.mp same)
      split at found
      · cases found
        exact owned is_doc
      · obtain ⟨i, has, rfl⟩ := Option.map_eq_some_iff.mp found
        rw [has]
        exact congrArg some (Int.natCast_inj.mp is_doc)

/-- The directory of the father of a place has the entry for the document. -/
theorem Represents.enters_of_owner (rep : Represents tops t locs owner lists marks) {docidx : Nat}
    {elt : Str} (here : loc ∈ locs) (names : Names loc elt)
    (owned : owner.lookup (loc ++ [elt]) = some docidx) :
    t.Enters docidx (locs.idxOf loc) elt := by
  obtain ⟨dir, there, -, dir_of⟩ := rep.dir_at (List.getElem?_idxOf here)
  have found := dir_of.lookup_names names
  rw [idsOf, owned] at found
  split at found
  · rename_i is_dir
    refine ⟨dir, _, there, found, rfl, fun same => ?_⟩
    have equal := (List.idxOf_inj is_dir).mp (Int.natCast_inj.mp same)
    simp at equal
  · refine ⟨dir, _, there, found, rfl, ?_⟩
    intro same
    change (-1 : Int) = _ at same
    omega

end Places

section Refill

variable {env : Env} {t t' : Folders} {lists : List Nat} {k docidx : Nat} {nm : Name}
  {ids : Ids} {elt : Str}

/-- An index of an entry is that of a directory, or none. -/
def IsIndex (t : Folders) (idx : Int) : Prop :=
  idx = -1 ∨ ∃ k, k < t.dirvec.length ∧ idx = (k : Int)

/-- Each entry of the table can be followed. -/
structure Indexed (t : Folders) : Prop where
  filled : t.dirvec ≠ []
  entries : ∀ dir ∈ t.dirvec, ∀ entry ∈ dir, t.IsIndex entry.2.1

theorem Indexed.dirAt (indexed : t.Indexed) {idx : Int} (is_index : t.IsIndex idx) :
    ∃ dir ∈ t.dirvec, t.dirAt idx = some dir := by
  rcases is_index with rfl | ⟨k, inside, rfl⟩
  · obtain ⟨front, last, split⟩ := (List.eq_nil_or_concat t.dirvec).resolve_left indexed.filled
    rw [List.concat_eq_append] at split
    refine ⟨last, by simp [split], ?_⟩
    rw [Folders.dirAt, split, List.length_append, List.length_singleton, pyIndex_last]
    simp
  · exact ⟨_, List.getElem_mem inside, dirAt_natCast (List.getElem?_eq_getElem inside)⟩

theorem Indexed.statFrom (indexed : t.Indexed) (elements : List Str) {ids : Ids}
    (is_index : t.IsIndex ids.1) : ∃ found, t.statFrom elements ids = some found := by
  induction elements generalizing ids with
  | nil => exact ⟨ids, rfl⟩
  | cons elt rest ih =>
      obtain ⟨dir, member, dir_at⟩ := indexed.dirAt is_index
      rw [Folders.statFrom, dir_at]
      simp only [bind, Option.bind_some]
      cases entry : dir.lookup (.text elt) with
      | none => exact ⟨_, rfl⟩
      | some next => exact ih (indexed.entries dir member _ (Dict.mem_of_lookup entry))

/-- A top directory can be followed. -/
theorem Indexed.beyond (indexed : t.Indexed) {doc : Doc} {fathidx : Int} {path : List Str}
    (found : pathbeyondtopdirs env t doc = some (fathidx, path)) : t.IsIndex fathidx := by
  unfold pathbeyondtopdirs at found
  dsimp only at found
  split at found
  · cases found
  · rename_i rtpath firstdiridx entry
    split at found
    · cases found
    · cases found
      obtain ⟨⟨nm, ids⟩, member, chosen⟩ := List.exists_of_findSome?_eq_some entry
      have of_root : t.dirvec.headD [] ∈ t.dirvec := by
        obtain ⟨root, rest, split⟩ := List.exists_cons_of_ne_nil indexed.filled
        simp [split]
      have is_index := indexed.entries _ of_root _ member
      cases nm with
      | bytes nm => cases chosen
      | text name =>
          dsimp only at chosen
          split at chosen
          · cases chosen
            exact is_index
          · cases chosen

theorem Indexed.statpath (indexed : t.Indexed) (env : Env) (plpath path : Bytes) :
    ∃ found, statpath env t plpath path = some found := by
  have walked : ∀ doc, ∃ ids, stat env t doc = some ids := by
    intro doc
    unfold stat
    split
    · exact ⟨_, rfl⟩
    · rename_i found
      split
      · exact ⟨_, rfl⟩
      · exact indexed.statFrom _ (indexed.beyond found)
  unfold Folders.statpath
  dsimp only
  obtain ⟨ids, stated⟩ := walked _
  rw [stated]
  exact ⟨_, rfl⟩

/-- Only the directories of these playlists have changed: their entries which are texts are old
ones, or for something which is no document. -/
structure Refilled (lists : List Nat) (t t' : Folders) : Prop where
  docs : t'.rcldocs = t.rcldocs
  size : t'.dirvec.length = t.dirvec.length
  indexed : t'.Indexed
  kept : ∀ k ∉ lists, t'.dirvec[k]? = t.dirvec[k]?
  texts : ∀ (k : Nat) (dir' : Dir), t'.dirvec[k]? = some dir' → ∃ dir : Dir,
    t.dirvec[k]? = some dir ∧ ∀ elt (ids : Ids), dir'.lookup (.text elt) = some ids →
      dir.lookup (.text elt) = some ids ∨ (t.rcldocs.length : Int) ≤ ids.2

theorem Refilled.refl (indexed : t.Indexed) : Refilled [] t t where
  docs := rfl
  size := rfl
  indexed := indexed
  kept _ _ := rfl
  texts _ dir' there := ⟨dir', there, fun _ _ found => .inl found⟩

theorem Refilled.mono {more : List Nat} (refilled : Refilled lists t t') (sub : lists ⊆ more) :
    Refilled more t t' where
  docs := refilled.docs
  size := refilled.size
  indexed := refilled.indexed
  kept k outside := refilled.kept k fun inside => outside (sub inside)
  texts := refilled.texts

/-- A new entry of a playlist. -/
theorem Refilled.setEntry (refilled : Refilled lists t t') (list : k ∈ lists)
    (inside : k < t.dirvec.length) {d : Int}
    (none_of_docs : ∀ elt, nm = .text elt → (t.rcldocs.length : Int) ≤ d) :
    ∃ t'', t'.setEntry k nm (-1, d) = some t'' ∧ Refilled lists t t'' := by
  rw [setEntry_natCast (refilled.size ▸ inside)]
  refine ⟨_, rfl, refilled.docs, ?_, ⟨?_, ?_⟩, ?_, ?_⟩
  · rw [List.length_modify, refilled.size]
  · intro empty
    have length := congrArg List.length empty
    rw [List.length_modify, List.length_nil] at length
    exact refilled.indexed.filled (List.length_eq_zero_iff.mp length)
  · unfold IsIndex
    rw [List.length_modify]
    refine forall_mem_modify refilled.indexed.entries fun dir member entries entry there => ?_
    rcases Dict.mem_set there with rfl | old
    · exact .inl rfl
    · exact entries entry old
  · intro i outside
    have apart : k ≠ i := fun same => outside (same ▸ list)
    rw [← refilled.kept i outside, List.getElem?_modify_ne _ _ apart]
  · intro i dir' there
    rw [List.getElem?_modify] at there
    obtain ⟨old, at_i, rfl⟩ := Option.map_eq_some_iff.mp there
    obtain ⟨dir, first, texts⟩ := refilled.texts i old at_i
    refine ⟨dir, first, fun elt ids' found => ?_⟩
    split at found
    · rw [Dict.lookup_set] at found
      split at found
      · rename_i same
        cases found
        exact .inr (none_of_docs elt same.symm)
      · exact texts elt ids' found
    · exact texts elt ids' found

variable (env) in
theorem Refilled.addLine (refilled : Refilled lists t t') (list : k ∈ lists)
    (inside : k < t.dirvec.length) (plpath url : Bytes) :
    ∃ t'', Folders.addLine env plpath k t' url = some t'' ∧ Refilled lists t t'' := by
  unfold Folders.addLine
  split
  · have more : Refilled lists t { t' with moredocs := t'.moredocs ++ [docforurl url] } :=
      ⟨refilled.docs, refilled.size, ⟨refilled.indexed.filled, refilled.indexed.entries⟩,
        refilled.kept, refilled.texts⟩
    refine more.setEntry list inside fun elt _ => ?_
    have docs := congrArg List.length refilled.docs
    rw [List.length_append, List.length_singleton]
    dsimp only
    omega
  · obtain ⟨found, stated⟩ := refilled.indexed.statpath env plpath url
    simp only [stated, bind, Option.bind_some]
    split
    · exact refilled.setEntry list inside fun elt same => nomatch same
    · exact ⟨t', rfl, refilled⟩

theorem Refilled.listOf_eq (refilled : Refilled lists t t') (other : k ∉ lists)
    (inside : k < t.dirvec.length) : listOf env t' k = listOf env t k := by
  have there := List.getElem?_eq_getElem inside
  rw [listOf, listOf, dirAt_natCast there, dirAt_natCast ((refilled.kept k other).trans there),
    refilled.docs]

variable (env) in
/-- The playlists are filled, one after the other. -/
theorem Refilled.initplaylists {items : List Nat} (refilled : Refilled lists t t')
    (distinct : (lists ++ items).Nodup) (inside : ∀ k ∈ items, k < t.dirvec.length)
    (listed : ∀ k ∈ items, (listOf env t k).isSome) :
    ∃ t'', items.foldlM (initplaylist env) t' = some t'' ∧ Refilled (lists ++ items) t t'' := by
  induction items generalizing lists t' with
  | nil => exact ⟨t', rfl, by rwa [List.append_nil]⟩
  | cons k rest ih =>
      rw [List.forall_mem_cons] at inside listed
      obtain ⟨found, list⟩ := Option.isSome_iff_exists.mp listed.1
      have other : k ∉ lists := fun before =>
        List.disjoint_of_nodup_append distinct before List.mem_cons_self
      have more : Refilled (lists ++ [k]) t t' := refilled.mono (List.subset_append_left _ _)
      have fill : ∃ t₁, found.2.foldlM (Folders.addLine env found.1 k) t' = some t₁ ∧
          Refilled (lists ++ [k]) t t₁ :=
        Fold.foldlM_total (fun s url _ kept => kept.addLine env (by simp) inside.1 found.1 url) more
      obtain ⟨t₁, filled, refilled₁⟩ := fill
      rw [List.append_cons] at distinct ⊢
      obtain ⟨t₂, ran, refilled₂⟩ := ih refilled₁ distinct inside.2 listed.2
      refine ⟨t₂, ?_, refilled₂⟩
      rw [List.foldlM_cons, initplaylist_eq, refilled.listOf_eq other inside.1, list,
        Option.bind_some, filled]
      exact ran

/-- The playlists have no new entry for a document, as far as texts go. -/
theorem Refilled.enters_before (refilled : Refilled lists t t')
    (document : docidx < t.rcldocs.length) (entered : t'.Enters docidx k elt) :
    t.Enters docidx k elt := by
  obtain ⟨dir', ids, there, found, is_doc, other⟩ := entered
  obtain ⟨dir, first, texts⟩ := refilled.texts k dir' there
  rcases texts elt ids found with old | new
  · exact ⟨dir, ids, first, old, is_doc, other⟩
  · omega

end Refill

section Paths

/-- The top directories are different absolute paths. -/
structure TopDirs (topdirs : List Str) : Prop where
  absolute : ∀ d ∈ topdirs, d.head? = some '/'
  distinct : (topdirs.map rstripSlash).Nodup

/-- A path is below a top directory, and begins with no other one. -/
structure Below (topdirs : List Str) (top rest path : Str) : Prop where
  member : top ∈ topdirs.map rstripSlash
  split : path = top ++ '/' :: rest
  only : ∀ other ∈ topdirs.map rstripSlash, other <+: path → other = top

variable {topdirs : List Str}

theorem TopDirs.head (tops : TopDirs topdirs) {top : Str}
    (member : top ∈ topdirs.map rstripSlash) : top = [] ∨ top.head? = some '/' := by
  obtain ⟨d, there, rfl⟩ := List.mem_map.mp member
  have absolute := tops.absolute d there
  obtain ⟨cut, whole⟩ : rstripSlash d <+: d := List.rdropWhile_prefix _ d
  cases stripped : rstripSlash d with
  | nil => exact .inl rfl
  | cons c rest =>
      rw [← whole, stripped] at absolute
      exact .inr absolute

theorem TopDirs.no_up (tops : TopDirs topdirs) :
    "..".toList ∉ topdirs.map rstripSlash := by
  intro up
  rcases tops.head up with empty | slash
  · cases empty
  · cases slash

/-- A path below a top directory is found to be so. -/
theorem Below.chain_eq {env : Env} {doc : Doc} {top rest : Str}
    (below : Below topdirs top rest (Utf8.decodeReplace (docpath env doc)))
    (tops : TopDirs topdirs) :
    chain env (topdirs.map rstripSlash) doc =
      some (top, pathElements (doc.get "group") ('/' :: rest)) := by
  have rooted : (top ++ '/' :: rest).head? = some '/' := by
    rcases tops.head below.member with empty | slash
    · rw [empty]
      rfl
    · rw [List.head?_append, slash]
      rfl
  have no_up : ¬ "..".toList.isPrefixOf (top ++ '/' :: rest) := by
    intro up
    obtain ⟨behind, same⟩ := List.isPrefixOf_iff_prefix.mp up
    rw [← same] at rooted
    cases rooted
  have first : (topdirs.map rstripSlash).find?
      (fun other => other.isPrefixOf (top ++ '/' :: rest)) = some top := by
    have begins : top.isPrefixOf (top ++ '/' :: rest) = true :=
      List.isPrefixOf_iff_prefix.mpr (List.prefix_append top _)
    cases found : (topdirs.map rstripSlash).find? fun other =>
        other.isPrefixOf (top ++ '/' :: rest) with
    | none => exact absurd begins (List.find?_eq_none.mp found top below.member)
    | some other =>
        have found_begins := List.find?_some found
        have only := below.only other (List.mem_of_find?_eq_some found)
        rw [below.split] at only
        rw [only (List.isPrefixOf_iff_prefix.mp found_begins)]
  unfold chain
  rw [below.split]
  dsimp only
  rw [if_neg no_up, first, Option.bind_some, List.drop_left, if_neg (List.cons_ne_nil _ _)]

/-- A path with a slash has more than one component. -/
theorem tail_splitOn_ne_nil {text : Str} (slash : '/' ∈ text) : (text.splitOn '/').tail ≠ [] := by
  intro single
  have pieces := List.splitOn_ne_nil '/' text
  cases split : text.splitOn '/' with
  | nil => exact pieces split
  | cons piece more =>
      rw [split, List.tail_cons] at single
      have joined : ['/'].intercalate (text.splitOn '/') = text := List.intercalate_splitOn '/'
      have first : piece ∈ text.splitOn '/' := by simp [split]
      have absent := Text.not_mem_of_mem_splitOn first
      rw [split, single, List.intercalate_singleton] at joined
      exact absent (joined ▸ slash)

theorem slash_mem_join {path other : Str} (some_path : path ≠ []) :
    '/' ∈ PosixPath.join path other := by
  unfold PosixPath.join
  split
  · rename_i absolute
    obtain ⟨rest, rfl⟩ := PosixPath.isabs_iff.mp absolute
    exact List.mem_cons_self
  · split
    · rename_i ends
      have last := ends.resolve_left some_path
      exact List.mem_append_left _ (List.mem_of_getLast? last)
    · exact List.mem_append_right _ List.mem_cons_self

theorem pathElements_ne_nil (group rest : Str) : pathElements group ('/' :: rest) ≠ [] := by
  unfold pathElements
  dsimp only
  refine tail_splitOn_ne_nil ?_
  split
  · exact List.mem_cons_self
  · rename_i some_group
    refine slash_mem_join fun empty => ?_
    unfold PosixPath.join at empty
    split at empty
    · exact some_group empty
    · split at empty
      · exact some_group (List.append_eq_nil_iff.mp empty).2
      · cases (List.append_eq_nil_iff.mp empty).2

end Paths

section Appear

variable {env : Env} {tops : List Str} {t t' : Folders} {locs : List Loc}
  {places : List Placement} {marks : Marks} {p : Placement}

theorem docidx_inj {docs : List Doc} {q : Placement} (here : p ∈ placements env tops docs)
    (there : q ∈ placements env tops docs) (same : q.docidx = p.docidx) : q = p := by
  obtain ⟨⟨doc, i⟩, at_i, placed⟩ := List.mem_filterMap.mp here
  obtain ⟨⟨doc', j⟩, at_j, placed'⟩ := List.mem_filterMap.mp there
  have i_eq := (placementOf_spec placed).1
  have j_eq := (placementOf_spec placed').1
  have equal : j = i := j_eq.symm.trans (same.trans i_eq)
  rw [List.mem_zipIdx_iff_getElem?] at at_i at_j
  dsimp only at placed placed' at_i at_j
  rw [equal, at_i, Option.some.injEq] at at_j
  rw [equal, ← at_j, placed, Option.some.injEq] at placed'
  exact placed'.symm

theorem lookup_place {docs : List Doc} {l : Loc} {docidx : Nat}
    (found : ((placements env tops docs).map fun p => (p.place, p.docidx)).lookup l = some docidx) :
    ∃ q ∈ placements env tops docs, q.place = l ∧ q.docidx = docidx := by
  obtain ⟨q, member, same⟩ := List.mem_map.mp (Dict.mem_of_lookup found)
  cases same
  exact ⟨q, member, rfl, rfl⟩

/-- The documents are in the directories which their paths lead to. The table may be the one where
the playlists are filled. -/
theorem Arranged.appears {docs : List Doc}
    (arranged : Arranged tops t locs (placements env tops docs) marks)
    (no_up : "..".toList ∉ tops) (fit : AllFit (placements env tops docs))
    (member : p ∈ placements env tops docs)
    (same : ∀ l ∈ [] :: p.way, t'.dirvec[locs.idxOf l]? = t.dirvec[locs.idxOf l]?)
    (before : ∀ k elt, t'.Enters p.docidx k elt → t.Enters p.docidx k elt) :
    t'.Appears p.docidx p.top p.elements := by
  obtain ⟨front_places, behind, split⟩ := List.append_of_mem member
  have fits := fit front_places p behind split
  obtain ⟨doc, -, placed⟩ := List.mem_filterMap.mp member
  obtain ⟨-, -, top_in, filled, -⟩ := placementOf_spec placed
  obtain ⟨front, elt, elements, names, father_in, place_eq⟩ := fits.split filled
  have way_eq : p.way = visited [p.top] front ++ [target [p.top] front] := by
    rw [Placement.way, elements, visited_concat]
  have dirs : ∀ l ∈ p.way, l ∈ locs := fun l on_way =>
    (arranged.members l).mpr (.inr (.inr ⟨p, member, .inl on_way⟩))
  have father := dirs _ father_in
  have at_top := arranged.rep.at_top top_in
  have top_here := List.mem_of_getElem? at_top
  have rooted : locs.idxOf ([] : Loc) = 0 := arranged.rep.idxOf_at arranged.rep.root_at
  have owned := lookup_of_nodup fit.distinct member
  rw [place_eq] at owned
  refine ⟨rootDir tops, tops.idxOf p.top + 1, locs.idxOf (target [p.top] front), front, elt, ?_,
    ?_, elements, ?_, ?_, ?_⟩
  · have kept := same [] List.mem_cons_self
    rw [rooted] at kept
    rw [kept, arranged.rep.root]
  · have differ : dotdot ≠ .text p.top := fun same => no_up (Name.text.inj same ▸ top_in)
    rw [rootDir, Dict.lookup_cons_of_ne differ, lookup_tops p.top tops 0, if_pos top_in]
    simp
  · have followed : t'.follow front (locs.idxOf [p.top]) = _ :=
      arranged.rep.follow_eq front top_here
      (fun l on_way => dirs l (way_eq ▸ List.mem_append_left _ on_way)) father
      (fun l on_way => same l (List.mem_cons_of_mem _ (way_eq ▸ List.mem_append_left _ on_way)))
    rwa [arranged.rep.idxOf_at at_top] at followed
  · obtain ⟨dir, ids, there, found, is_doc, other⟩ :=
      arranged.rep.enters_of_owner father names owned
    refine ⟨dir, ids, ?_, found, is_doc, other⟩
    rw [same _ (List.mem_cons_of_mem _ father_in), there]
  · intro k' elt' listed
    obtain ⟨loc', at_k', owned'⟩ := arranged.rep.owner_of_enters (before k' elt' listed)
    obtain ⟨q, there, at_place, same_doc⟩ := lookup_place owned'
    rw [docidx_inj member there same_doc, place_eq] at at_place
    obtain ⟨same_loc, same_elt⟩ := List.append_inj' at_place rfl
    rw [same_loc, arranged.rep.idxOf_at at_k']
    exact ⟨rfl, (List.cons.inj same_elt).1.symm⟩

/-- Where all documents fit, each is where its path leads to: below the entry of its top directory,
through the elements of its path with its group before the last one, and in no other directory. The
playlists leave it there, unless it is below one. -/
theorem appears_of_fit {topdirs : List Str} {docs : List Doc} {doc : Doc} {docidx : Nat}
    {top rest : Str} (tops : TopDirs topdirs)
    (fit : AllFit (placements env (topdirs.map rstripSlash) docs))
    (there : docs[docidx]? = some doc) (selected : doc.get "mtype" ∈ audiomtypes)
    (below : Below topdirs top rest (Utf8.decodeReplace (docpath env doc)))
    (outside : ∀ q ∈ placements env (topdirs.map rstripSlash) docs, q.isList →
      q.place ∉ visited [top] (pathElements (doc.get "group") ('/' :: rest))) :
    ∃ t, rcl2folders env topdirs docs = some t ∧
      t.Appears docidx top (pathElements (doc.get "group") ('/' :: rest)) := by
  have chained := below.chain_eq tops
  have filled := pathElements_ne_nil (doc.get "group") rest
  have placed : placementOf env (topdirs.map rstripSlash) doc docidx =
      some ⟨docidx, doc.get "mtype", top, pathElements (doc.get "group") ('/' :: rest)⟩ := by
    rw [placementOf, if_neg (not_not.mpr selected), chained, Option.bind_some, if_neg filled]
  have member : ⟨docidx, doc.get "mtype", top, pathElements (doc.get "group") ('/' :: rest)⟩ ∈
      placements env (topdirs.map rstripSlash) docs :=
    List.mem_filterMap.mpr ⟨(doc, docidx), List.mem_zipIdx_iff_getElem?.mpr there, placed⟩
  have start := grown_topTree docs (List.nodup_cons.mpr ⟨tops.no_up, tops.distinct⟩)
  obtain ⟨-, t, built, grown⟩ := start.run fit
  obtain ⟨locs, loaded, playlists⟩ := grown.loaded fit
  have arranged := loaded.stocked.arranged
  have docs_eq := loaded.stocked.docs_eq
  have indexed : t.Indexed := by
    refine ⟨fun empty => ?_, arranged.rep.wellFormed.valid⟩
    have root := arranged.rep.root
    rw [empty] at root
    cases root
  have in_locs : ∀ q ∈ (placements env (topdirs.map rstripSlash) docs).filter fun p => p.isList,
      q.place ∈ locs ∧ 2 ≤ q.place.length := fun q list =>
    (arranged.list_place (loaded.lists_in q list).1 (loaded.lists_in q list).2).2
  have distinct : ([] ++ t.playlists).Nodup := by
    have places := fit.distinct.sublist
      ((List.filter_sublist (p := fun p => decide p.isList)).map Placement.place)
    rw [List.nil_append, playlists]
    refine (List.Nodup.of_map _ places).map_on fun q list q' list' same => ?_
    have same_place := (List.idxOf_inj (in_locs q list).1).mp same
    exact List.inj_on_of_nodup_map places list list' same_place
  obtain ⟨t', ran, refilled⟩ := (Refilled.refl indexed).initplaylists env distinct
    (fun k list => by
      rw [playlists] at list
      obtain ⟨q, is_list, rfl⟩ := List.mem_map.mp list
      rw [arranged.rep.size]
      exact List.idxOf_lt_length_of_mem (in_locs q is_list).1)
    fun k list => by
      rw [playlists] at list
      obtain ⟨q, is_list, rfl⟩ := List.mem_map.mp list
      have in_docs := docidx_lt (loaded.lists_in q is_list).1
      rw [loaded.listOf_eq env is_list (List.getElem?_eq_getElem in_docs)]
      rfl
  refine ⟨t', ?_, arranged.appears tops.no_up fit member (fun l on_way => ?_) fun k elt => ?_⟩
  · rw [rcl2folders, documentTree, built, Option.bind_some]
    exact ran
  · refine refilled.kept _ fun list => ?_
    rw [List.nil_append, playlists] at list
    obtain ⟨q, is_list, same⟩ := List.mem_map.mp list
    have place_eq := (List.idxOf_inj (in_locs q is_list).1).mp same
    obtain ⟨q_member, q_list⟩ := loaded.lists_in q is_list
    rcases List.mem_cons.mp on_way with rfl | inside
    · have deep := (in_locs q is_list).2
      rw [place_eq] at deep
      cases deep
    · exact outside q q_member q_list (place_eq ▸ inside)
  · refine refilled.enters_before ?_
    rw [docs_eq]
    exact (List.getElem?_eq_some_iff.mp there).1

/-- A track in a group. -/
def groupedTrack : Doc := docAt "audio/mpeg" "/m/b.mp3" [("group", "g")]

theorem placements_groupedTrack : placements (bareEnv []) (["/m".toList].map rstripSlash)
    [groupedTrack] = [⟨0, "audio/mpeg".toList, "/m".toList, ["g".toList, "b.mp3".toList]⟩] := rfl

theorem groupedTrack_fits :
    AllFit (placements (bareEnv []) (["/m".toList].map rstripSlash) [groupedTrack]) := by
  rw [placements_groupedTrack]
  intro before p behind split
  have none_before : before = [] := by
    cases before with
    | nil => rfl
    | cons first rest => simp at split
  subst none_before
  cases split
  refine ⟨by decide, fun elements elt same => ?_, nofun, nofun, fun _ => ⟨by decide, nofun⟩⟩
  obtain ⟨-, last⟩ := List.append_inj' (show ["g".toList] ++ ["b.mp3".toList] = _ from same) rfl
  cases last
  exact ⟨by decide, fun dot => absurd dot (by decide)⟩

theorem groupedTrack_tops : TopDirs ["/m".toList] := ⟨by decide, by decide⟩

theorem groupedTrack_below : Below ["/m".toList] "/m".toList "b.mp3".toList
    (Utf8.decodeReplace (docpath (bareEnv []) groupedTrack)) := by
  have path : Utf8.decodeReplace (docpath (bareEnv []) groupedTrack) = "/m/b.mp3".toList := by
    decide
  rw [path]
  refine ⟨by decide, by decide, fun other there _ => ?_⟩
  exact List.mem_singleton.mp there

theorem groupedTrack_appears :
    ∃ t, rcl2folders (bareEnv []) ["/m".toList] [groupedTrack] = some t ∧
      t.Appears 0 "/m".toList (pathElements (groupedTrack.get "group") "/b.mp3".toList) := by
  refine appears_of_fit groupedTrack_tops groupedTrack_fits rfl (by decide) groupedTrack_below ?_
  intro q member list
  rw [placements_groupedTrack, List.mem_singleton] at member
  rw [member] at list
  exact absurd list (by decide)

/-- The path of a track which has a group does not lead to it. -/
theorem groupedTrack_not_at_path : ¬ ∀ (env : Env) (topdirs : List Str) (docs : List Doc)
    (t : Folders) (docidx : Nat) (doc : Doc) (top rest : Str), TopDirs topdirs →
      docs[docidx]? = some doc → Below topdirs top rest (Utf8.decodeReplace (docpath env doc)) →
        rcl2folders env topdirs docs = some t → t.Appears docidx top (rest.splitOn '/') := by
  intro claim
  have table : (rcl2folders (bareEnv []) ["/m".toList] [groupedTrack]).map (fun t =>
      ((t.dirvec[0]?.bind fun root => root.lookup (.text "/m".toList)).map Prod.fst,
        t.dirvec[1]?.bind fun dir => dir.lookup (.text "b.mp3".toList))) =
      some (some 1, none) := by decide
  obtain ⟨t, built, entries⟩ := Option.map_eq_some_iff.mp table
  obtain ⟨top_entry, no_entry⟩ := Prod.mk.inj entries
  obtain ⟨root, first, k, front, elt, at_root, top_at, elements, followed, ⟨dir, ids, there, found,
    -⟩, -⟩ := claim _ _ _ t 0 _ _ _ groupedTrack_tops rfl groupedTrack_below built
  have split : "b.mp3".toList.splitOn '/' = [] ++ ["b.mp3".toList] := by decide
  rw [split] at elements
  obtain ⟨no_front, last⟩ := List.append_inj' elements rfl
  rw [at_root, Option.bind_some, top_at] at top_entry
  subst no_front
  cases last
  cases followed
  have one : first = 1 := Int.natCast_inj.mp (Option.some.inj top_entry)
  rw [one] at there
  rw [there, Option.bind_some, found] at no_entry
  cases no_entry

end Appear

end Upmpdcli.Uprcl.Folders
