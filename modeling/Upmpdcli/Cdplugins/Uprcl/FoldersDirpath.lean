import Upmpdcli.Cdplugins.Uprcl.FoldersWellFormed

set_option autoImplicit false

/- The path of a directory, which its names on the way up to the root make. -/
namespace Upmpdcli.Uprcl.Folders

/-- The name of the first entry which a directory has for another one. -/
def nameIn (t : Folders) (fathidx idx : Int) : Option Name :=
  (t.dirAt fathidx).bind fun dir => (dir.find? fun entry => entry.2.1 = idx).map Prod.fst

/-- The entry of a directory for its father leads to one whose first entry for it has this name. -/
structure Named (t : Folders) (idx fathidx : Int) (nm : Str) : Prop where
  below_root : idx ≠ 0
  leads : t.father idx = some fathidx
  named : t.nameIn fathidx idx = some (.text nm)

/-- The names from the root down to a directory. -/
inductive Rises (t : Folders) : Int → List Str → Prop
  | top {idx : Int} {nm : Str} : t.Named idx 0 nm → Rises t idx [nm]
  | up {idx fathidx : Int} {nm : Str} {names : List Str} :
      t.Named idx fathidx nm → fathidx ≠ 0 → Rises t fathidx names → Rises t idx (names ++ [nm])

/-- The path with these names, with its final slash. -/
def pathOf (names : List Str) : Str := names.flatMap fun nm => nm ++ "/".toList

section Walk

variable {t : Folders} {idx fathidx : Int} {nm : Str} {names : List Str}

theorem Rises.below_root (rises : t.Rises idx names) : idx ≠ 0 := by
  cases rises with
  | top named => exact named.below_root
  | up named => exact named.below_root

theorem Rises.some_name (rises : t.Rises idx names) : names ≠ [] := by
  cases rises with
  | top => exact List.cons_ne_nil _ _
  | up => exact List.append_ne_nil_of_right_ne_nil _ (List.cons_ne_nil _ _)

/-- One turn of the walk. -/
theorem Named.dirpathFrom_succ (named : t.Named idx fathidx nm) (steps : Nat) (lpath : List Name) :
    t.dirpathFrom (steps + 1) idx lpath =
      if 200 < (lpath ++ [Name.text nm]).length then some none
      else if fathidx = 0 then some (some (lpath ++ [.text nm]))
      else t.dirpathFrom steps fathidx (lpath ++ [.text nm]) := by
  obtain ⟨dir, has_dir, has_father⟩ := Option.bind_eq_some_iff.mp named.leads
  obtain ⟨⟨_, docidx⟩, found, rfl⟩ := Option.map_eq_some_iff.mp has_father
  obtain ⟨father, has_names, has_entry⟩ := Option.bind_eq_some_iff.mp named.named
  obtain ⟨⟨_, ids⟩, entry_found, rfl⟩ := Option.map_eq_some_iff.mp has_entry
  rw [dirpathFrom, has_dir]
  simp only [bind, Option.bind_some, found]
  rw [has_names, Option.bind_some, entry_found]

/-- The walk is done when it has at most 200 names in all. -/
theorem Rises.dirpathFrom_eq (rises : t.Rises idx names) {steps : Nat} {lpath : List Name}
    (turns : steps + lpath.length = 201) (short : lpath.length ≤ 200) :
    t.dirpathFrom steps idx lpath =
      if lpath.length + names.length ≤ 200 then some (some (lpath ++ names.reverse.map .text))
      else some none := by
  induction rises generalizing steps lpath with
  | top named =>
      obtain ⟨steps, rfl⟩ : ∃ k, steps = k + 1 := ⟨steps - 1, by omega⟩
      rw [named.dirpathFrom_succ, if_pos rfl, List.length_append, List.length_singleton,
        List.length_singleton]
      split
      · rw [if_neg (by omega)]
      · rw [if_pos (by omega)]
        rfl
  | @up idx fathidx nm names named not_root _ ih =>
      obtain ⟨steps, rfl⟩ : ∃ k, steps = k + 1 := ⟨steps - 1, by omega⟩
      have length : (lpath ++ [Name.text nm]).length = lpath.length + 1 := by simp
      rw [named.dirpathFrom_succ, if_neg not_root, length, List.length_append,
        List.length_singleton]
      by_cases long : 200 < lpath.length + 1
      · rw [if_pos long, if_neg (by omega)]
      · rw [if_neg long, ih (by omega) (by omega), length]
        have same : lpath.length + 1 + names.length = lpath.length + (names.length + 1) := by omega
        rw [same, List.reverse_append, List.map_append, List.append_assoc]
        rfl

/-- `dirpath` gives the path of a directory, or the root when it has more than 200 names. -/
theorem Rises.dirpath_eq (rises : t.Rises idx names) :
    t.dirpath idx = some (if names.length ≤ 200 then pathOf names else "/".toList) := by
  have texts (nms : List Str) : (nms.map Name.text).mapM Name.asText = some nms := by
    induction nms with
    | nil => rfl
    | cons nm rest ih =>
        rw [List.map_cons, List.mapM_cons, ih]
        rfl
  rw [dirpath, if_neg rises.below_root, rises.dirpathFrom_eq rfl (Nat.zero_le _)]
  simp only [List.length_nil, Nat.zero_add, List.nil_append]
  split
  · simp only [bind, Option.bind_some, ← List.map_reverse, List.reverse_reverse, texts]
    rfl
  · rfl

end Walk

section Tree

variable {tops : List Str} {t : Folders} {locs : List Loc} {owner : List (Loc × Nat)}
  {lists : List Loc} {marks : Marks} {loc : Loc} {k : Nat}

/-- The father of a place has one entry for it, under its last name. -/
theorem Represents.named_at (rep : Represents tops t locs owner lists marks) {elt : Str}
    (at_k : locs[k]? = some (loc ++ [elt])) : t.Named k (locs.idxOf loc) elt := by
  have member := List.mem_of_getElem? at_k
  have father_in := rep.closed _ member
  rw [List.dropLast_concat] at father_in
  have own := rep.idxOf_at at_k
  obtain ⟨dir, there, -, dir_of⟩ := rep.dir_at (List.getElem?_idxOf father_in)
  have differ {other : Loc} (inside : other ∈ locs) (same : (locs.idxOf other : Int) = k) :
      other = loc ++ [elt] := by
    rw [← own, Int.ofNat_inj] at same
    exact (List.idxOf_inj inside).mp same
  refine ⟨?_, ?_, ?_⟩
  · intro root
    have first := differ (List.mem_of_getElem? rep.root_at)
      ((congrArg Int.ofNat (rep.idxOf_at rep.root_at)).trans root.symm)
    exact List.append_ne_nil_of_right_ne_nil loc (List.cons_ne_nil elt []) first.symm
  · rw [rep.father_eq at_k, List.dropLast_concat]
  · have entry : dir.lookup (.text elt) =
        some ((k : Int), docId (owner.lookup (loc ++ [elt]))) := by
      rw [dir_of.lookup_names (rep.named loc elt member), idsOf, if_pos member, own]
    rw [nameIn, dirAt_natCast there, Option.bind_some]
    cases found : dir.find? fun entry => entry.2.1 = (k : Int) with
    | none =>
        have missing := List.find?_eq_none.mp found _ (Dict.mem_of_lookup entry)
        exact absurd (decide_eq_true rfl) missing
    | some first =>
        have same := List.find?_some found
        rw [decide_eq_true_eq] at same
        have here := VarMap.lookup_of_mem dir_of.distinct (List.mem_of_find?_eq_some found)
        rw [Option.map_some, Option.some.injEq]
        rcases dir_of.entry_cases here with ⟨-, up⟩ | ⟨-, self⟩ | ⟨other, nm, is_dir, below⟩ | file
        · have above := differ (rep.closed loc father_in) (up.symm.trans same)
          have lengths := congrArg List.length above
          simp at lengths
        · have itself := differ father_in (self.symm.trans same)
          simp at itself
        · have last := differ is_dir (below.symm.trans same)
          rw [List.append_right_inj, List.cons.injEq] at last
          rw [nm, last.1]
        · omega

/-- The names on the way up from a place are its own. -/
theorem Represents.rises (rep : Represents tops t locs owner lists marks)
    (at_k : locs[k]? = some loc) (filled : loc ≠ []) : t.Rises k loc := by
  induction loc using List.reverseRecOn generalizing k with
  | nil => exact absurd rfl filled
  | append_singleton loc elt ih =>
      have named := rep.named_at at_k
      have father_in := rep.closed _ (List.mem_of_getElem? at_k)
      rw [List.dropLast_concat] at father_in
      by_cases top : loc = []
      · subst top
        rw [rep.idxOf_at rep.root_at] at named
        exact .top named
      · have rises := ih (List.getElem?_idxOf father_in) top
        exact .up named rises.below_root rises

/-- Where everything has a place of its own, each directory below the root has a path. -/
theorem Apart.rises {env : Env} {topdirs : List Str} {docs : List Doc}
    (apart : Apart env topdirs docs) (built : rcl2folders env topdirs docs = some t) (below : 0 < k)
    (inside : k < t.dirvec.length) : ∃ names, t.Rises k names := by
  obtain ⟨-, t', locs, owner, lists, marks, built', rep⟩ := apart.represents
  rw [built, Option.some.injEq] at built'
  subst built'
  rw [rep.size] at inside
  have at_k := List.getElem?_eq_getElem inside
  refine ⟨locs[k], rep.rises at_k fun root => ?_⟩
  have first := rep.idxOf_at rep.root_at
  rw [← root, rep.idxOf_at at_k] at first
  omega

end Tree

end Upmpdcli.Uprcl.Folders
