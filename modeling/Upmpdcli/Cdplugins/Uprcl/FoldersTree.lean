import Upmpdcli.Cdplugins.Uprcl.Folders

set_option autoImplicit false

/- The places of the tree of the folders, which the table of the directories stands for. -/
namespace Upmpdcli.Uprcl.Folders

/-- A place: the top directory, and the names below it. The root has none. -/
abbrev Loc := List Str

/-- The place which a path element leads to. Only the directories below the top directories
have an entry for themselves. -/
def step (loc : Loc) (elt : Str) : Loc :=
  if elt = "..".toList then loc.dropLast
  else if elt = ".".toList ∧ 2 ≤ loc.length then loc
  else loc ++ [elt]

/-- The places in which the elements of a path are looked up. -/
def visited (loc : Loc) : List Str → List Loc
  | [] => []
  | elt :: rest => loc :: visited (step loc elt) rest

def target (loc : Loc) (elements : List Str) : Loc := elements.foldl step loc

/-- The root of a table with these top directories. -/
def rootDir (tops : List Str) : Dir :=
  (dotdot, (0, -1)) :: tops.zipIdx.map fun top => (.text top.1, ((top.2 : Int) + 1, -1))

/-- The index of a document in an entry. -/
def docId (doc : Option Nat) : Int := (doc.map fun i : Nat => (i : Int)).getD (-1)

/-- What the entry for a place is, with the places which are directories and those which
documents have. -/
def idsOf (locs : List Loc) (owner : List (Loc × Nat)) (loc : Loc) : Option Ids :=
  if loc ∈ locs then
    some ((locs.idxOf loc : Int), docId (owner.lookup loc))
  else (owner.lookup loc).map fun i : Nat => (-1, (i : Int))

/-- The documents of the lines of playlists, by the place of the playlist and the name. -/
abbrev Marks := List ((Loc × Bytes) × Nat)

/-- The directory of a place has its entries: the one for the father, the one for itself, those
for the places below it, and those for the lines of a playlist. -/
structure DirOf (locs : List Loc) (owner : List (Loc × Nat)) (marks : Marks) (k : Nat) (loc : Loc)
    (dir : Dir) : Prop where
  father : dir.lookup dotdot = some ((locs.idxOf loc.dropLast : Int), -1)
  self : 2 ≤ loc.length → ∃ d, dir.lookup dot = some ((k : Int), d)
  below : ∀ elt, elt ≠ "..".toList → (elt = ".".toList → loc.length < 2) →
    dir.lookup (.text elt) = idsOf locs owner (loc ++ [elt])
  lines : ∀ nm, dir.lookup (.bytes nm) =
    (marks.lookup (loc, nm)).map fun i : Nat => (-1, (i : Int))
  distinct : (dir.map Prod.fst).Nodup

/-- An element which names something below a place. -/
def Names (loc : Loc) (elt : Str) : Prop :=
  elt ≠ "..".toList ∧ (elt = ".".toList → loc.length < 2)

/-- The table stands for these places: which of them are directories, in the order of their
indexes, which ones the documents have, which ones are those of playlists, and what the lines of
these are. -/
structure Represents (tops : List Str) (t : Folders) (locs : List Loc)
    (owner : List (Loc × Nat)) (lists : List Loc) (marks : Marks) : Prop where
  size : t.dirvec.length = locs.length
  root : t.dirvec[0]? = some (rootDir tops)
  starts : (([] : Loc) :: tops.map fun top => [top]) <+: locs
  deep : ∀ loc ∈ locs, loc = [] ∨ (∃ top ∈ tops, loc = [top]) ∨ 2 ≤ loc.length
  distinct : locs.Nodup
  closed : ∀ loc ∈ locs, loc.dropLast ∈ locs
  named : ∀ loc elt, loc ++ [elt] ∈ locs → Names loc elt
  owners : ∀ place ∈ owner, 2 ≤ place.1.length ∧ place.1.dropLast ∈ locs
  dirs : ∀ (k : Nat) loc dir, locs[k]? = some loc → t.dirvec[k]? = some dir →
    DirOf locs owner marks k loc dir
  playlists : t.playlists = lists.map fun loc => locs.idxOf loc
  lists_in : ∀ loc ∈ lists, loc ∈ locs
  marked : ∀ mark ∈ marks, mark.1.1 ∈ lists
  list_doc : ∀ loc ∈ lists, ∀ dir, t.dirvec[locs.idxOf loc]? = some dir →
    ∃ i : Nat, owner.lookup loc = some i ∧ dir.lookup dot = some ((locs.idxOf loc : Int), (i : Int))

section Table

variable {t : Folders} {k : Nat} {idx : Int} {nm : Name} {ids : Ids} {dir : Dir}

theorem pyIndex_natCast {length : Nat} (inside : k < length) : pyIndex length k = some k := by
  rw [pyIndex, if_pos (by omega), if_pos (by omega), Int.toNat_natCast]

theorem pyIndex_last (length : Nat) : pyIndex (length + 1) (-1) = some length := by
  rw [pyIndex, if_neg (by omega), if_pos (by omega)]
  congr 1
  omega

theorem dirAt_natCast (there : t.dirvec[k]? = some dir) : t.dirAt k = some dir := by
  have inside := (List.getElem?_eq_some_iff.mp there).1
  rw [dirAt, pyIndex_natCast inside, Option.bind_some, there]

theorem setEntry_natCast (inside : k < t.dirvec.length) :
    t.setEntry k nm ids =
      some { t with dirvec := t.dirvec.modify k fun dir => Dict.set dir nm ids } := by
  rw [setEntry, pyIndex_natCast inside, Option.map_some]

theorem modify_append_left {α : Type*} {f : α → α} {k : Nat} {front : List α}
    (inside : k < front.length) (behind : List α) :
    (front ++ behind).modify k f = front.modify k f ++ behind := by
  induction front generalizing k with
  | nil => exact absurd inside (Nat.not_lt_zero k)
  | cons first rest ih =>
      cases k with
      | zero => rfl
      | succ k =>
          rw [List.cons_append, List.modify_succ_cons, List.modify_succ_cons,
            ih (by simpa using inside), List.cons_append]

theorem modify_append_last {α : Type*} {f : α → α} {last : α} {front : List α} :
    (front ++ [last]).modify front.length f = front ++ [f last] := by
  induction front with
  | nil => rfl
  | cons first rest ih =>
      rw [List.cons_append, List.length_cons, List.modify_succ_cons, ih, List.cons_append]

/-- The last directory, which counts as -1. -/
theorem setEntry_last {dirs : List Dir} (is_last : t.dirvec = dirs ++ [dir]) :
    t.setEntry (-1) nm ids = some { t with dirvec := dirs ++ [Dict.set dir nm ids] } := by
  have length : t.dirvec.length = dirs.length + 1 := by rw [is_last, List.length_append]; rfl
  rw [setEntry, length, pyIndex_last, Option.map_some, is_last, modify_append_last]

/-- A new directory comes to the end of the table, and into its father. -/
theorem createdir_natCast (inside : k < t.dirvec.length) (docidx : Int) (nm : Name) :
    t.createdir k docidx nm =
      some ({ t with dirvec := (t.dirvec.modify k fun dir =>
                Dict.set dir nm ((t.dirvec.length : Int), docidx)) ++
              [[(dotdot, ((k : Int), -1)), (dot, ((t.dirvec.length : Int), docidx))]] },
            (t.dirvec.length : Int)) := by
  have last : ((t.dirvec ++ [([] : Dir)]).length : Int) - 1 = t.dirvec.length := by
    rw [List.length_append, List.length_singleton]
    omega
  have in_father : ({ t with dirvec := t.dirvec ++ [[]] } : Folders).setEntry k nm
      ((t.dirvec.length : Int), docidx) =
        some { t with dirvec := (t.dirvec.modify k fun dir =>
          Dict.set dir nm ((t.dirvec.length : Int), docidx)) ++ [[]] } := by
    have inside' : k < (t.dirvec ++ [([] : Dir)]).length := by
      rw [List.length_append]
      omega
    rw [setEntry_natCast (t := { t with dirvec := t.dirvec ++ [[]] }) inside']
    simp only [modify_append_left inside]
  unfold createdir
  dsimp only [bind]
  rw [last, in_father, Option.bind_some, @setEntry_last _ _ _ [] _ rfl, Option.bind_some,
    setEntry_last rfl, Option.bind_some]
  rfl

end Table

section Entries

variable {locs : List Loc} {owner : List (Loc × Nat)} {loc other : Loc} {k : Nat} {dir : Dir}

theorem lookup_append_of_ne (differ : other ≠ loc) (i : Nat) :
    (owner ++ [(loc, i)]).lookup other = owner.lookup other := by
  rw [List.lookup_append, List.lookup_cons, beq_false_of_ne differ]
  simp

theorem lookup_append_self (free : owner.lookup loc = none) (i : Nat) :
    (owner ++ [(loc, i)]).lookup loc = some i := by
  rw [List.lookup_append, free, List.lookup_cons_self, Option.none_or]

/-- The owners, with one more if a document comes to the place. -/
def withOwner (owner : List (Loc × Nat)) (loc : Loc) (doc : Option Nat) : List (Loc × Nat) :=
  owner ++ (doc.map fun i => (loc, i)).toList

theorem lookup_withOwner_of_ne (differ : other ≠ loc) (doc : Option Nat) :
    (withOwner owner loc doc).lookup other = owner.lookup other := by
  cases doc with
  | none => simp [withOwner]
  | some i => exact lookup_append_of_ne differ i

theorem lookup_withOwner_self (free : owner.lookup loc = none) (doc : Option Nat) :
    (withOwner owner loc doc).lookup loc = doc := by
  cases doc with
  | none => simpa [withOwner] using free
  | some i => exact lookup_append_self free i

theorem idsOf_append_of_ne (differ : other ≠ loc) (doc : Option Nat) :
    idsOf (locs ++ [loc]) (withOwner owner loc doc) other = idsOf locs owner other := by
  unfold idsOf
  rw [lookup_withOwner_of_ne differ]
  by_cases inside : other ∈ locs
  · rw [if_pos (List.mem_append_left _ inside), if_pos inside, List.idxOf_append_of_mem inside]
  · rw [if_neg (by simp [inside, differ]), if_neg inside]

theorem idsOf_withOwner_of_ne (differ : other ≠ loc) (doc : Option Nat) :
    idsOf locs (withOwner owner loc doc) other = idsOf locs owner other := by
  unfold idsOf
  rw [lookup_withOwner_of_ne differ]

/-- What the entry of a new directory must be. -/
theorem idsOf_append_self (fresh : loc ∉ locs) (free : owner.lookup loc = none)
    (doc : Option Nat) :
    idsOf (locs ++ [loc]) (withOwner owner loc doc) loc =
      some ((locs.length : Int), docId doc) := by
  rw [idsOf, if_pos (by simp), List.idxOf_append_of_notMem fresh, lookup_withOwner_self free]
  simp

end Entries

section Changes

variable {tops : List Str} {t : Folders} {locs : List Loc} {owner : List (Loc × Nat)}
  {lists : List Loc} {marks : Marks} {loc : Loc} {k : Nat} {dir : Dir} {elt : Str}

theorem Names.step (names : Names loc elt) : step loc elt = loc ++ [elt] := by
  unfold Folders.step
  rw [if_neg names.1, if_neg]
  rintro ⟨dot, deep⟩
  exact absurd (names.2 dot) (by omega)

theorem Names.ne_dotdot (names : Names loc elt) : Name.text elt ≠ dotdot := fun same =>
  names.1 (Name.text.inj same)

theorem Names.ne_dot (names : Names loc elt) (deep : 2 ≤ loc.length) : Name.text elt ≠ dot :=
  fun same => absurd (names.2 (Name.text.inj same)) (by omega)

theorem Represents.dir_at (rep : Represents tops t locs owner lists marks)
    (at_k : locs[k]? = some loc) :
    ∃ dir, t.dirvec[k]? = some dir ∧ t.dirAt k = some dir ∧ DirOf locs owner marks k loc dir := by
  have inside := (List.getElem?_eq_some_iff.mp at_k).1
  rw [← rep.size] at inside
  have there := List.getElem?_eq_getElem inside
  exact ⟨_, there, dirAt_natCast there, rep.dirs k loc _ at_k there⟩

theorem Represents.idxOf_at (rep : Represents tops t locs owner lists marks)
    (at_k : locs[k]? = some loc) : locs.idxOf loc = k := by
  obtain ⟨inside, rfl⟩ := List.getElem?_eq_some_iff.mp at_k
  exact rep.distinct.idxOf_getElem k inside

/-- An element leads to the directory of its place. -/
theorem Represents.lookup_step (rep : Represents tops t locs owner lists marks)
    (at_k : locs[k]? = some loc) (dir_of : DirOf locs owner marks k loc dir)
    (is_dir : step loc elt ∈ locs) :
    ∃ d, dir.lookup (.text elt) = some ((locs.idxOf (step loc elt) : Int), d) := by
  by_cases up : elt = "..".toList
  · have father : step loc elt = loc.dropLast := if_pos up
    exact ⟨-1, by rw [father, up]; exact dir_of.father⟩
  · by_cases self : elt = ".".toList ∧ 2 ≤ loc.length
    · obtain ⟨d, found⟩ := dir_of.self self.2
      have same : step loc elt = loc := by rw [step, if_neg up, if_pos self]
      exact ⟨d, by rw [same, rep.idxOf_at at_k, self.1]; exact found⟩
    · have names : Names loc elt := ⟨up, fun dot => by
        by_contra deep
        exact self ⟨dot, by omega⟩⟩
      rw [names.step] at is_dir ⊢
      exact ⟨_, by rw [dir_of.below elt names.1 names.2, idsOf, if_pos is_dir]⟩

/-- Where no directory is, the element is a name. -/
theorem Represents.names_of_no_dir (rep : Represents tops t locs owner lists marks)
    (at_k : locs[k]? = some loc) (no_dir : step loc elt ∉ locs) : Names loc elt := by
  have member := List.mem_of_getElem? at_k
  constructor
  · rintro rfl
    rw [step, if_pos rfl] at no_dir
    exact no_dir (rep.closed loc member)
  · rintro rfl
    by_contra deep
    rw [step, if_neg (by decide), if_pos ⟨rfl, by omega⟩] at no_dir
    exact no_dir member

theorem DirOf.lookup_names (dir_of : DirOf locs owner marks k loc dir) (names : Names loc elt) :
    dir.lookup (.text elt) = idsOf locs owner (loc ++ [elt]) :=
  dir_of.below elt names.1 names.2

/-- The other directories do not change, when something comes to a place below this one. -/
theorem DirOf.of_other {k' : Nat} {loc' : Loc} {dir' : Dir} {locs' : List Loc}
    {owner' : List (Loc × Nat)} (dir_of : DirOf locs owner marks k' loc' dir')
    (closed : loc'.dropLast ∈ locs) (grown : locs <+: locs')
    (same : ∀ elt, idsOf locs' owner' (loc' ++ [elt]) = idsOf locs owner (loc' ++ [elt])) :
    DirOf locs' owner' marks k' loc' dir' where
  father := by
    obtain ⟨behind, rfl⟩ := grown
    rw [List.idxOf_append_of_mem closed, dir_of.father]
  self := dir_of.self
  below elt no_up no_self := by rw [same, dir_of.below elt no_up no_self]
  lines := dir_of.lines
  distinct := dir_of.distinct

/-- The directory itself has a new entry, or another one. -/
theorem DirOf.of_self {locs' : List Loc} {owner' : List (Loc × Nat)} {ids : Ids}
    (dir_of : DirOf locs owner marks k loc dir) (closed : loc.dropLast ∈ locs)
    (grown : locs <+: locs') (names : Names loc elt)
    (here : idsOf locs' owner' (loc ++ [elt]) = some ids)
    (same : ∀ other, other ≠ elt →
      idsOf locs' owner' (loc ++ [other]) = idsOf locs owner (loc ++ [other])) :
    DirOf locs' owner' marks k loc (Dict.set dir (.text elt) ids) where
  father := by
    obtain ⟨behind, rfl⟩ := grown
    rw [Dict.lookup_set_of_ne (Ne.symm names.ne_dotdot), List.idxOf_append_of_mem closed,
      dir_of.father]
  self deep := by
    rw [Dict.lookup_set_of_ne (Ne.symm (names.ne_dot deep))]
    exact dir_of.self deep
  below other no_up no_self := by
    by_cases same_elt : other = elt
    · rw [same_elt, Dict.lookup_set_self, here]
    · rw [Dict.lookup_set_of_ne fun same => same_elt (Name.text.inj same),
        dir_of.below other no_up no_self, same other same_elt]
  lines nm := by
    have differ : Name.bytes nm ≠ Name.text elt := nofun
    rw [Dict.lookup_set_of_ne differ, dir_of.lines nm]
  distinct := Dict.nodup_set dir_of.distinct _ _

theorem append_ne_of_ne {loc' : Loc} {other : Str} (differ : other ≠ elt) :
    loc' ++ [other] ≠ loc ++ [elt] := by
  intro same
  exact differ (List.cons.inj (List.append_inj_right' same rfl)).1

theorem append_ne_of_loc_ne {loc' : Loc} {other : Str} (differ : loc' ≠ loc) :
    loc' ++ [other] ≠ loc ++ [elt] := fun same => differ (List.append_inj_left' same rfl)

theorem Represents.father_of_owner (rep : Represents tops t locs owner lists marks) {i : Nat}
    (found : owner.lookup loc = some i) : 2 ≤ loc.length ∧ loc.dropLast ∈ locs :=
  rep.owners _ (Dict.mem_of_lookup found)

theorem Represents.pos_of_ne_nil (rep : Represents tops t locs owner lists marks)
    (at_k : locs[k]? = some loc) (below_root : loc ≠ []) : k ≠ 0 := by
  rintro rfl
  obtain ⟨behind, rfl⟩ := rep.starts
  cases at_k
  exact below_root rfl

/-- The dictionaries of a table in which one of them was changed, and which may have grown. -/
theorem getElem?_changed {dirs : List Dir} {change : Dir → Dir} {k' : Nat} {new : List Dir}
    {dir' : Dir} (there : (dirs.modify k change ++ new)[k']? = some dir') :
    (k' < dirs.length ∧ ∃ old, dirs[k']? = some old ∧ dir' = if k = k' then change old else old) ∨
      (dirs.length ≤ k' ∧ new[k' - dirs.length]? = some dir') := by
  rw [List.getElem?_append, List.length_modify] at there
  split at there
  · rename_i inside
    left
    rw [List.getElem?_modify] at there
    obtain ⟨old, found, same⟩ := Option.map_eq_some_iff.mp there
    exact ⟨inside, old, found, same.symm⟩
  · exact .inr ⟨by omega, there⟩

/-- The entries of a directory which has just been made. -/
theorem Represents.newDir (rep : Represents tops t locs owner lists marks)
    (at_k : locs[k]? = some loc) (below_root : loc ≠ []) (fresh : loc ++ [elt] ∉ locs)
    (doc : Option Nat) :
    DirOf (locs ++ [loc ++ [elt]]) (withOwner owner (loc ++ [elt]) doc) marks locs.length
      (loc ++ [elt])
      [(dotdot, ((k : Int), -1)), (dot, ((locs.length : Int), docId doc))] where
  father := by
    rw [List.dropLast_concat, List.idxOf_append_of_mem (List.mem_of_getElem? at_k),
      rep.idxOf_at at_k, List.lookup_cons_self]
  self _ := ⟨docId doc, rfl⟩
  below other no_up no_self := by
    have deep : 2 ≤ (loc ++ [elt]).length := by
      have := List.length_pos_iff.mpr below_root
      simp
      omega
    have names : Names (loc ++ [elt]) other := ⟨no_up, no_self⟩
    have differ : loc ++ [elt] ++ [other] ≠ loc ++ [elt] := by simp
    have no_dir : loc ++ [elt] ++ [other] ∉ locs := fun member =>
      fresh (by simpa using rep.closed _ member)
    have no_doc : owner.lookup (loc ++ [elt] ++ [other]) = none := by
      cases found : owner.lookup (loc ++ [elt] ++ [other]) with
      | none => rfl
      | some i => exact absurd (by simpa using (rep.father_of_owner found).2) fresh
    rw [Dict.lookup_cons_of_ne (Ne.symm names.ne_dotdot),
      Dict.lookup_cons_of_ne (Ne.symm (names.ne_dot deep)), List.lookup_nil,
      idsOf_append_of_ne differ, idsOf, if_neg no_dir, no_doc, Option.map_none]
  lines nm := by
    have no_mark : marks.lookup (loc ++ [elt], nm) = none := by
      cases found : marks.lookup (loc ++ [elt], nm) with
      | none => rfl
      | some i => exact absurd (rep.lists_in _ (rep.marked _ (Dict.mem_of_lookup found))) fresh
    rw [no_mark]
    rfl
  distinct := by
    show ([dotdot, dot] : List Name).Nodup
    decide

/-- A new directory, which stands for a new place. -/
theorem Represents.addDir (rep : Represents tops t locs owner lists marks)
    (at_k : locs[k]? = some loc) (below_root : loc ≠ []) (names : Names loc elt)
    (fresh : loc ++ [elt] ∉ locs) (free : owner.lookup (loc ++ [elt]) = none) (doc : Option Nat) :
    ∃ t', t.createdir k (docId doc) (.text elt) = some (t', (locs.length : Int)) ∧
      Represents tops t' (locs ++ [loc ++ [elt]]) (withOwner owner (loc ++ [elt]) doc) lists marks ∧
      t'.rcldocs = t.rcldocs ∧ t'.moredocs = t.moredocs ∧
      t'.dirvec[locs.length]? =
        some [(dotdot, ((k : Int), -1)), (dot, ((locs.length : Int), docId doc))] := by
  have inside := (List.getElem?_eq_some_iff.mp at_k).1
  have member := List.mem_of_getElem? at_k
  have not_first := rep.pos_of_ne_nil at_k below_root
  have deep : 2 ≤ (loc ++ [elt]).length := by
    have := List.length_pos_iff.mpr below_root
    simp
    omega
  have grown : locs <+: locs ++ [loc ++ [elt]] := List.prefix_append _ _
  rw [createdir_natCast (rep.size ▸ inside), rep.size]
  refine ⟨_, rfl, ?_, rfl, rfl, ?_⟩
  · constructor
    · simp [rep.size]
    · dsimp only
      rw [List.getElem?_append, if_pos (by rw [List.length_modify, rep.size]; omega),
        List.getElem?_modify_ne _ _ not_first, rep.root]
    · exact rep.starts.trans grown
    · intro other there
      rcases List.mem_append.mp there with old | new
      · exact rep.deep other old
      · rw [List.mem_singleton.mp new]
        exact .inr (.inr deep)
    · rw [← List.concat_eq_append]
      exact rep.distinct.concat fresh
    · intro other there
      rcases List.mem_append.mp there with old | new
      · exact List.mem_append_left _ (rep.closed other old)
      · rw [List.mem_singleton.mp new, List.dropLast_concat]
        exact List.mem_append_left _ member
    · intro other nm there
      rcases List.mem_append.mp there with old | new
      · exact rep.named other nm old
      · obtain ⟨rfl, same⟩ := List.append_inj' (List.mem_singleton.mp new) rfl
        rw [(List.cons.inj same).1]
        exact names
    · intro place there
      rcases List.mem_append.mp there with old | new
      · exact ⟨(rep.owners place old).1, List.mem_append_left _ (rep.owners place old).2⟩
      · have here : place.1 = loc ++ [elt] := by
          cases doc with
          | none => simp at new
          | some i => rw [List.mem_singleton.mp new]
        rw [here, List.dropLast_concat]
        exact ⟨deep, List.mem_append_left _ member⟩
    · intro k' loc' dir' at_k' there
      rcases getElem?_changed there with ⟨in_old, old, found, rfl⟩ | ⟨past, new⟩
      · rw [rep.size] at in_old
        rw [List.getElem?_append_left in_old] at at_k'
        have dir_of := rep.dirs k' loc' old at_k' found
        have closed := rep.closed loc' (List.mem_of_getElem? at_k')
        split
        · rename_i same_k
          subst same_k
          rw [at_k, Option.some.injEq] at at_k'
          subst at_k'
          exact dir_of.of_self closed grown names (idsOf_append_self fresh free doc)
            fun other differ => idsOf_append_of_ne (append_ne_of_ne differ) doc
        · rename_i other_k
          refine dir_of.of_other closed grown fun other => idsOf_append_of_ne ?_ doc
          refine append_ne_of_loc_ne ?_
          rintro rfl
          exact other_k (by rw [← rep.idxOf_at at_k, rep.idxOf_at at_k'])
      · have last : k' = locs.length := by
          have := (List.getElem?_eq_some_iff.mp at_k').1
          rw [List.length_append, List.length_singleton] at this
          rw [rep.size] at past
          omega
        subst last
        rw [List.getElem?_concat_length, Option.some.injEq] at at_k'
        subst at_k'
        rw [rep.size, Nat.sub_self, List.getElem?_cons_zero, Option.some.injEq] at new
        subst new
        exact rep.newDir at_k below_root fresh doc
    · dsimp only
      rw [rep.playlists]
      exact List.map_congr_left fun other there =>
        (List.idxOf_append_of_mem (rep.lists_in other there)).symm
    · exact fun other there => List.mem_append_left _ (rep.lists_in other there)
    · exact rep.marked
    · intro other there dir' found
      have old := rep.lists_in other there
      rw [List.idxOf_append_of_mem old] at found ⊢
      have below := List.idxOf_lt_length_of_mem old
      rcases getElem?_changed found with ⟨-, before, at_old, rfl⟩ | ⟨past, -⟩
      · obtain ⟨i, doc_of, self⟩ := rep.list_doc other there before at_old
        have other_deep := (rep.father_of_owner doc_of).1
        have differ : other ≠ loc ++ [elt] := fun same => fresh (same ▸ old)
        refine ⟨i, by rw [lookup_withOwner_of_ne differ, doc_of], ?_⟩
        split
        · rename_i same_k
          have same : other = loc := by
            have at_other := List.getElem?_idxOf old
            rw [← same_k, at_k, Option.some.injEq] at at_other
            exact at_other.symm
          rw [Dict.lookup_set_of_ne (Ne.symm (names.ne_dot (same ▸ other_deep))), self]
        · exact self
      · rw [rep.size] at past
        omega
  · dsimp only
    rw [List.getElem?_append_right (by rw [List.length_modify, rep.size]), List.length_modify,
      rep.size, Nat.sub_self]
    rfl

/-- A document comes to a place, where a directory may be. -/
theorem Represents.setDoc (rep : Represents tops t locs owner lists marks)
    (at_k : locs[k]? = some loc) (below_root : loc ≠ []) (names : Names loc elt)
    (free : owner.lookup (loc ++ [elt]) = none) (i : Nat) :
    ∃ t', t.setEntry k (.text elt)
        (if loc ++ [elt] ∈ locs then (locs.idxOf (loc ++ [elt]) : Int) else -1, (i : Int)) =
          some t' ∧
      Represents tops t' locs (withOwner owner (loc ++ [elt]) (some i)) lists marks ∧
      t'.rcldocs = t.rcldocs ∧ t'.moredocs = t.moredocs := by
  have inside := (List.getElem?_eq_some_iff.mp at_k).1
  have member := List.mem_of_getElem? at_k
  have not_first := rep.pos_of_ne_nil at_k below_root
  have here : idsOf locs (withOwner owner (loc ++ [elt]) (some i)) (loc ++ [elt]) =
      some (if loc ++ [elt] ∈ locs then (locs.idxOf (loc ++ [elt]) : Int) else -1, (i : Int)) := by
    rw [idsOf, lookup_withOwner_self free]
    split <;> rfl
  rw [setEntry_natCast (rep.size ▸ inside)]
  refine ⟨_, rfl, ?_, rfl, rfl⟩
  constructor
  · simp [rep.size]
  · dsimp only
    rw [List.getElem?_modify_ne _ _ not_first, rep.root]
  · exact rep.starts
  · exact rep.deep
  · exact rep.distinct
  · exact rep.closed
  · exact rep.named
  · intro place there
    rcases List.mem_append.mp there with old | new
    · exact rep.owners place old
    · have := List.length_pos_iff.mpr below_root
      rw [List.mem_singleton.mp new, List.dropLast_concat]
      exact ⟨by simp; omega, member⟩
  · intro k' loc' dir' at_k' there
    rw [← List.append_nil (List.modify _ _ _)] at there
    rcases getElem?_changed there with ⟨in_old, old, found, rfl⟩ | ⟨past, new⟩
    · have dir_of := rep.dirs k' loc' old at_k' found
      have closed := rep.closed loc' (List.mem_of_getElem? at_k')
      split
      · rename_i same_k
        subst same_k
        rw [at_k, Option.some.injEq] at at_k'
        subst at_k'
        exact dir_of.of_self closed List.prefix_rfl names here
          fun other differ => idsOf_withOwner_of_ne (append_ne_of_ne differ) _
      · rename_i other_k
        refine dir_of.of_other closed List.prefix_rfl fun other => idsOf_withOwner_of_ne ?_ _
        refine append_ne_of_loc_ne ?_
        rintro rfl
        exact other_k (by rw [← rep.idxOf_at at_k, rep.idxOf_at at_k'])
    · simp at new
  · exact rep.playlists
  · exact rep.lists_in
  · exact rep.marked
  · intro other there dir' found
    rw [← List.append_nil (List.modify _ _ _)] at found
    rcases getElem?_changed found with ⟨-, before, at_old, rfl⟩ | ⟨-, new⟩
    · obtain ⟨j, doc_of, self⟩ := rep.list_doc other there before at_old
      have other_deep := (rep.father_of_owner doc_of).1
      have differ : other ≠ loc ++ [elt] := by
        rintro rfl
        rw [free] at doc_of
        cases doc_of
      refine ⟨j, by rw [lookup_withOwner_of_ne differ, doc_of], ?_⟩
      split
      · rename_i same_k
        have same : other = loc := by
          have at_other := List.getElem?_idxOf (rep.lists_in other there)
          rw [← same_k, at_k, Option.some.injEq] at at_other
          exact at_other.symm
        rw [Dict.lookup_set_of_ne (Ne.symm (names.ne_dot (same ▸ other_deep))), self]
      · exact self
    · simp at new

theorem modify_eq_self {α : Type*} {items : List α} {i : Nat} {item : α} {f : α → α}
    (there : items[i]? = some item) (same : f item = item) : items.modify i f = items := by
  refine List.ext_getElem? fun j => ?_
  rw [List.getElem?_modify]
  by_cases here : i = j
  · subst here
    simp [there, same]
  · simp [here]

/-- A new playlist. -/
theorem Represents.addList (rep : Represents tops t locs owner lists marks)
    (at_k : locs[k]? = some loc) (below_root : loc ≠ []) (names : Names loc elt)
    (fresh : loc ++ [elt] ∉ locs) (free : owner.lookup (loc ++ [elt]) = none) (i : Nat) :
    ∃ t', t.createpldir k i (.text elt) = some (t', (locs.length : Int)) ∧
      Represents tops t' (locs ++ [loc ++ [elt]]) (withOwner owner (loc ++ [elt]) (some i))
        (lists ++ [loc ++ [elt]]) marks ∧
      t'.rcldocs = t.rcldocs ∧ t'.moredocs = t.moredocs := by
  obtain ⟨t', created, rep', docs, more, new⟩ :=
    rep.addDir at_k below_root names fresh free (some i)
  have last_in : locs.length < t'.dirvec.length := by
    rw [rep'.size]
    simp
  have created : t.createdir k i (.text elt) = some (t', (locs.length : Int)) := created
  have other : dotdot ≠ dot := by decide
  have same : t'.dirvec.modify locs.length (fun dir =>
      Dict.set dir dot ((locs.length : Int), (i : Int))) = t'.dirvec := by
    refine modify_eq_self new ?_
    rw [Dict.set_cons_of_ne other]
    rfl
  have idx : (locs ++ [loc ++ [elt]]).idxOf (loc ++ [elt]) = locs.length := by
    rw [List.idxOf_append_of_notMem fresh]
    simp
  unfold createpldir
  simp only [created, bind, Option.bind_some, setEntry_natCast last_in, same]
  refine ⟨_, rfl, ?_, docs, more⟩
  refine ⟨rep'.size, rep'.root, rep'.starts, rep'.deep, rep'.distinct, rep'.closed, rep'.named,
    rep'.owners, rep'.dirs, ?_, ?_, ?_, ?_⟩
  · dsimp only
    rw [rep'.playlists, List.map_append, List.map_singleton, idx, Int.toNat_natCast]
  · intro other there
    rcases List.mem_append.mp there with old | last
    · exact rep'.lists_in other old
    · rw [List.mem_singleton.mp last]
      simp
  · exact fun mark there => List.mem_append_left _ (rep'.marked mark there)
  · intro other there dir' found
    rcases List.mem_append.mp there with old | last
    · exact rep'.list_doc other old dir' found
    · rw [List.mem_singleton.mp last] at found ⊢
      rw [idx] at found ⊢
      rw [new, Option.some.injEq] at found
      rw [← found]
      exact ⟨i, lookup_withOwner_self free (some i), rfl⟩

/-- A line of a playlist, whose name is new. -/
theorem Represents.addMark (rep : Represents tops t locs owner lists marks)
    (at_k : locs[k]? = some loc) (list : loc ∈ lists) {nm : Bytes}
    (new : marks.lookup (loc, nm) = none) (i : Nat) :
    ∃ t', t.setEntry k (.bytes nm) (-1, (i : Int)) = some t' ∧
      Represents tops t' locs owner lists (marks ++ [((loc, nm), i)]) ∧
      t'.rcldocs = t.rcldocs ∧ t'.moredocs = t.moredocs := by
  have inside := (List.getElem?_eq_some_iff.mp at_k).1
  have not_text : ∀ elt, Name.text elt ≠ Name.bytes nm := nofun
  have not_first : k ≠ 0 := by
    obtain ⟨dir, there, -, -⟩ := rep.dir_at at_k
    obtain ⟨i, found, -⟩ := rep.list_doc loc list dir (rep.idxOf_at at_k ▸ there)
    refine rep.pos_of_ne_nil at_k ?_
    rintro rfl
    exact absurd (rep.father_of_owner found).1 (by simp)
  rw [setEntry_natCast (rep.size ▸ inside)]
  refine ⟨_, rfl, ?_, rfl, rfl⟩
  refine ⟨by simp [rep.size], ?_, rep.starts, rep.deep, rep.distinct, rep.closed, rep.named,
    rep.owners, ?_, rep.playlists, rep.lists_in, ?_, ?_⟩
  · dsimp only
    rw [List.getElem?_modify_ne _ _ not_first, rep.root]
  · intro k' loc' dir' at_k' there
    rw [← List.append_nil (List.modify _ _ _)] at there
    rcases getElem?_changed there with ⟨-, old, found, rfl⟩ | ⟨-, none_more⟩
    · have dir_of := rep.dirs k' loc' old at_k' found
      split
      · rename_i same_k
        subst same_k
        rw [at_k, Option.some.injEq] at at_k'
        subst at_k'
        refine ⟨?_, ?_, ?_, ?_, Dict.nodup_set dir_of.distinct _ _⟩
        · rw [Dict.lookup_set_of_ne (show dotdot ≠ .bytes nm from nofun), dir_of.father]
        · intro deep
          rw [Dict.lookup_set_of_ne (show dot ≠ .bytes nm from nofun)]
          exact dir_of.self deep
        · intro elt no_up no_self
          rw [Dict.lookup_set_of_ne (not_text _), dir_of.below elt no_up no_self]
        · intro other
          by_cases same_nm : other = nm
          · rw [same_nm, Dict.lookup_set_self, List.lookup_append, new, Option.none_or,
              List.lookup_cons_self, Option.map_some]
          · have differ : (loc, other) ≠ (loc, nm) := fun same => same_nm (Prod.mk.inj same).2
            rw [Dict.lookup_set_of_ne fun same => same_nm (Name.bytes.inj same), dir_of.lines,
              List.lookup_append, List.lookup_cons, beq_false_of_ne differ]
            simp
      · rename_i other_k
        refine ⟨dir_of.father, dir_of.self, dir_of.below, fun other => ?_, dir_of.distinct⟩
        have differ : (loc', other) ≠ (loc, nm) := by
          intro same
          have same_loc := (Prod.mk.inj same).1
          subst same_loc
          exact other_k (by rw [← rep.idxOf_at at_k, rep.idxOf_at at_k'])
        rw [dir_of.lines, List.lookup_append, List.lookup_cons, beq_false_of_ne differ]
        simp
    · simp at none_more
  · intro mark there
    rcases List.mem_append.mp there with old | last
    · exact rep.marked mark old
    · rw [List.mem_singleton.mp last]
      exact list
  · intro other there dir' found
    rw [← List.append_nil (List.modify _ _ _)] at found
    rcases getElem?_changed found with ⟨-, before, at_old, rfl⟩ | ⟨-, none_more⟩
    · obtain ⟨j, doc_of, self⟩ := rep.list_doc other there before at_old
      refine ⟨j, doc_of, ?_⟩
      split
      · rw [Dict.lookup_set_of_ne (show dot ≠ .bytes nm from nofun), self]
      · exact self
    · simp at none_more

end Changes

end Upmpdcli.Uprcl.Folders
