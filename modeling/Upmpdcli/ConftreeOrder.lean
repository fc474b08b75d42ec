import Upmpdcli.Conftree

set_option autoImplicit false

/- What `i_set` does to the variables and to the lines of a file. -/
namespace Upmpdcli.Conftree

/-- The section behind a line. -/
def ConfLine.sectionBehind (sk : Bytes) (line : ConfLine) : Bytes :=
  if line.kind = .sk then line.data else sk

/-- The section behind these lines. -/
def sectionAt (sk : Bytes) (order : List ConfLine) : Bytes := order.foldl ConfLine.sectionBehind sk

/-- The section and the name of each variable which has a line. -/
def assigned : Bytes → List ConfLine → List (Bytes × Bytes)
  | _, [] => []
  | sk, line :: rest =>
      (if line.kind = .var then [(sk, line.data)] else []) ++ assigned (line.sectionBehind sk) rest

theorem sectionAt_append (sk : Bytes) (before after : List ConfLine) :
    sectionAt sk (before ++ after) = sectionAt (sectionAt sk before) after := List.foldl_append

theorem assigned_append (sk : Bytes) (before after : List ConfLine) :
    assigned sk (before ++ after) =
      assigned sk before ++ assigned (sectionAt sk before) after := by
  induction before generalizing sk with
  | nil => rfl
  | cons line before ih =>
      rw [List.cons_append, assigned, ih, assigned, List.append_assoc]
      rfl

/-- Lines without a section line stay in the section. -/
theorem sectionAt_of_zone {zone : List ConfLine} (inside : ∀ line ∈ zone, line.kind ≠ .sk)
    (sk : Bytes) : sectionAt sk zone = sk := by
  induction zone with
  | nil => rfl
  | cons line zone ih =>
      rw [List.forall_mem_cons] at inside
      show sectionAt (line.sectionBehind sk) zone = sk
      rw [ConfLine.sectionBehind, if_neg inside.1]
      exact ih inside.2

theorem mem_assigned_of_zone {zone : List ConfLine} (inside : ∀ line ∈ zone, line.kind ≠ .sk)
    (sk nm : Bytes) :
    (sk, nm) ∈ assigned sk zone ↔ ∃ line ∈ zone, line.kind = .var ∧ line.data = nm := by
  induction zone with
  | nil => simp [assigned]
  | cons line zone ih =>
      rw [List.forall_mem_cons] at inside
      rw [assigned, ConfLine.sectionBehind, if_neg inside.1, List.mem_append, ih inside.2,
        List.exists_mem_cons_iff]
      apply or_congr _ Iff.rfl
      split
      · simp_all [eq_comm]
      · simp_all

theorem addVar_zone (nm : Bytes) {zone : List ConfLine}
    (inside : ∀ line ∈ zone, line.kind ≠ .sk) : ∀ line ∈ addVar nm zone, line.kind ≠ .sk := by
  induction zone with
  | nil => simp [addVar]
  | cons line zone ih =>
      rw [List.forall_mem_cons] at inside
      unfold addVar
      split
      · simpa [List.forall_mem_cons, inside.1] using inside.2
      · rw [List.forall_mem_cons]
        exact ⟨inside.1, ih inside.2⟩

theorem mem_addVar (nm : Bytes) (zone : List ConfLine) (line : ConfLine) :
    line ∈ addVar nm zone ↔ line ∈ zone ∨ line = { kind := .var, data := nm } := by
  induction zone with
  | nil => simp [addVar]
  | cons first zone ih =>
      unfold addVar
      split
      · simp only [List.mem_cons]
        tauto
      · simp only [List.mem_cons, ih]
        tauto

theorem assigned_addVar (nm sk : Bytes) {zone : List ConfLine} {pair : Bytes × Bytes}
    (member : pair ∈ assigned sk zone) : pair ∈ assigned sk (addVar nm zone) := by
  induction zone generalizing sk with
  | nil => cases member
  | cons line zone ih =>
      unfold addVar
      rw [assigned, List.mem_append] at member
      split
      · rename_i commented
        have kind : line.kind ≠ .sk := by simp [commented.1]
        rw [assigned, List.mem_append, assigned, List.mem_append]
        rcases member with first | later
        · exact .inl first
        · exact .inr (.inr (by simpa [ConfLine.sectionBehind] using later))
      · rw [assigned, List.mem_append]
        exact member.imp_right (ih _)

/-- The lines after a variable has got one in its section. -/
structure Placed (nm sk : Bytes) (old new : List ConfLine) : Prop where
  kept : ∀ pair ∈ assigned [] old, pair ∈ assigned [] new
  here : (sk, nm) ∈ assigned [] new
  lines : ∀ line ∈ new, line ∈ old ∨ line = { kind := .var, data := nm }
  last : sectionAt [] new = sectionAt [] old

theorem placed_push {nm sk : Bytes} {old : List ConfLine} (last : sectionAt [] old = sk) :
    Placed nm sk old (old ++ [{ kind := .var, data := nm }]) where
  kept pair member := by
    rw [assigned_append]
    exact List.mem_append_left _ member
  here := by
    rw [assigned_append, last]
    exact List.mem_append_right _ (by simp [assigned])
  lines line member := by simpa using member
  last := by rw [sectionAt_append]; rfl

theorem placed_zone {sk : Bytes} {before zone : List ConfLine}
    (start : sectionAt [] before = sk) (inside : ∀ line ∈ zone, line.kind ≠ .sk) (nm : Bytes)
    (fin : List ConfLine) :
    Placed nm sk (before ++ zone ++ fin) (before ++
      (if zone.any (fun line => line.kind = .var ∧ line.data = nm) then zone else addVar nm zone) ++
      fin) := by
  generalize new_eq : (if zone.any (fun line => line.kind = .var ∧ line.data = nm) then zone
    else addVar nm zone) = new
  symm at new_eq
  have new_inside : ∀ line ∈ new, line.kind ≠ .sk := by
    rw [new_eq]
    split
    · exact inside
    · exact addVar_zone nm inside
  constructor
  · intro pair member
    simp only [assigned_append, sectionAt_append, sectionAt_of_zone inside,
      sectionAt_of_zone new_inside, start, List.mem_append] at member ⊢
    have more (zoned : pair ∈ assigned sk zone) : pair ∈ assigned sk new := by
      rw [new_eq]
      split
      · exact zoned
      · exact assigned_addVar nm sk zoned
    exact member.imp_left (Or.imp_right more)
  · simp only [assigned_append, start, List.mem_append]
    refine .inl (.inr ?_)
    rw [mem_assigned_of_zone new_inside, new_eq]
    split
    · rename_i found
      simpa using found
    · exact ⟨_, (mem_addVar nm zone _).mpr (.inr rfl), rfl, rfl⟩
  · intro line member
    simp only [List.mem_append] at member ⊢
    rcases member with (early | zoned) | late
    · exact .inl (.inl (.inl early))
    · rw [new_eq] at zoned
      split at zoned
      · exact .inl (.inl (.inr zoned))
      · exact ((mem_addVar nm zone line).mp zoned).imp_left fun old => .inl (.inr old)
    · exact .inl (.inr late)
  · simp only [sectionAt_append, sectionAt_of_zone inside, sectionAt_of_zone new_inside]

section

variable {conf after : ConfSimple} {nm sk value : Bytes} {init : Bool}

theorem ConfSimple.key_of_flags (flags : conf.flags = {}) (nm : Bytes) : conf.key nm = nm := by
  simp [ConfSimple.key, caseKey, flags]

theorem ConfSimple.subkey_of_flags (flags : conf.flags = {}) (sk : Bytes) :
    conf.subkey sk = sk := by
  simp [ConfSimple.subkey, caseKey, flags]

theorem ConfSimple.startOf_some (flags : conf.flags = {}) {before rest : List ConfLine}
    (found : conf.startOf sk = some (before, rest)) :
    conf.order = before ++ rest ∧ sectionAt [] before = sk := by
  unfold ConfSimple.startOf at found
  split at found
  · rename_i global
    cases found
    exact ⟨rfl, global.symm⟩
  · split at found
    · cases found
    · rename_i line behind dropped
      cases found
      have here := List.head?_dropWhile_not (fun line => ! conf.isSk sk line) conf.order
      have whole := List.takeWhile_append_dropWhile (p := fun line => ! conf.isSk sk line)
        (l := conf.order)
      simp only [decide_not, Bool.decide_eq_true] at dropped ⊢
      rw [dropped] at here whole
      simp only [List.head?_cons, Bool.not_eq_eq_eq_not, Bool.not_false, ConfSimple.isSk,
        ConfSimple.subkey_of_flags flags, decide_eq_true_eq] at here
      rw [List.append_assoc, sectionAt_append]
      refine ⟨whole.symm, ?_⟩
      show line.sectionBehind _ = sk
      rw [ConfLine.sectionBehind, if_pos here.1, here.2]

theorem ConfSimple.orderVar_status (done : conf.orderVar nm sk init = .done after) :
    after.status = conf.status := by
  unfold ConfSimple.orderVar at done
  split at done
  · cases done
    rfl
  · split at done <;> cases done
    rfl

theorem ConfSimple.iSet_status (done : conf.iSet nm value sk init = .done after) :
    after.status = conf.status := by
  unfold ConfSimple.iSet at done
  split at done
  · cases done
  · dsimp only at done
    split at done
    · split at done
      · exact (ConfSimple.orderVar_status done).trans rfl
      · exact (ConfSimple.orderVar_status done).trans rfl
    · split at done
      · cases done
        rfl
      · exact (ConfSimple.orderVar_status done).trans rfl

/-- A variable which did not exist gets a line in its section. -/
theorem ConfSimple.orderVar_done (flags : conf.flags = {})
    (current : init = true → sectionAt [] conf.order = sk)
    (done : conf.orderVar nm sk init = .done after) :
    ∃ order, after = { conf with order } ∧ Placed nm sk conf.order order := by
  unfold ConfSimple.orderVar at done
  split at done
  · rename_i parsing
    cases done
    exact ⟨_, rfl, placed_push (current parsing)⟩
  · split at done
    · cases done
    · rename_i before rest start
      obtain ⟨whole, opened⟩ := ConfSimple.startOf_some flags start
      dsimp only at done
      cases done
      refine ⟨_, rfl, ?_⟩
      have split_rest := List.takeWhile_append_dropWhile (p := fun line => decide (line.kind ≠ .sk))
        (l := rest)
      have inside : ∀ line ∈ rest.takeWhile fun line => line.kind ≠ .sk, line.kind ≠ .sk :=
        fun line member => by simpa using List.mem_takeWhile_imp member
      have placed := placed_zone opened inside nm (rest.dropWhile fun line => line.kind ≠ .sk)
      rw [List.append_assoc, split_rest, ← whole] at placed
      have same : conf.isVar nm = fun line => decide (line.kind = .var ∧ line.data = nm) := by
        funext line
        simp only [ConfSimple.isVar, ConfSimple.key_of_flags flags]
      rw [same]
      exact placed

theorem ConfSimple.find_of_flags (flags : conf.flags = {}) (nm sk : Bytes) :
    conf.find nm sk = (VarMap.find conf.submaps sk).bind fun submap => VarMap.find submap nm := by
  unfold ConfSimple.find
  rw [ConfSimple.key_of_flags flags, ConfSimple.subkey_of_flags flags]

/-- `i_set` in the submaps. -/
theorem ConfSimple.find_set {updated : ConfSimple} (flags : conf.flags = {})
    (same : updated.flags = conf.flags) {submap : Submap}
    (found : (VarMap.find conf.submaps sk).getD [] = submap)
    (set : updated.submaps = VarMap.set conf.submaps sk (VarMap.set submap nm value))
    (nm' sk' : Bytes) :
    updated.find nm' sk' = if nm' = nm ∧ sk' = sk then some value else conf.find nm' sk' := by
  rw [ConfSimple.find_of_flags flags, ConfSimple.find_of_flags (same.trans flags), set,
    VarMap.find_set]
  by_cases here : sk' = sk
  · subst here
    rw [if_pos rfl, Option.bind_some, VarMap.find_set]
    by_cases named : nm' = nm
    · simp [named]
    · rw [if_neg named, if_neg fun both => named both.1, ← found]
      cases VarMap.find conf.submaps sk' <;> rfl
  · rw [if_neg here, if_neg fun both => here both.2]

/-- What `i_set` does when it takes the value: no line end in it, the variable set, and a line
for it in its section. -/
structure Assigned (conf after : ConfSimple) (nm value sk : Bytes) : Prop where
  one_line : value.any lineEnds.contains = false
  same : ∃ submaps order, after = { conf with submaps, order }
  find : ∀ nm' sk', after.find nm' sk' =
    if nm' = nm ∧ sk' = sk then some value else conf.find nm' sk'
  order : (conf.find nm sk).isSome ∧ after.order = conf.order ∨
    ∃ middle, (middle = conf.order ∨ middle = conf.order ++ [{ kind := .sk, data := sk }]) ∧
      Placed nm sk middle after.order

theorem ConfSimple.iSet_done (flags : conf.flags = {})
    (current : init = true → sectionAt [] conf.order = sk)
    (done : conf.iSet nm value sk init = .done after) : Assigned conf after nm value sk := by
  unfold ConfSimple.iSet at done
  split at done
  · cases done
  · rename_i one_line
    rw [Bool.not_eq_true] at one_line
    simp only [ConfSimple.key_of_flags flags, ConfSimple.subkey_of_flags flags] at done
    split at done
    · rename_i absent
      have empty : (VarMap.find conf.submaps sk).getD [] = [] := by rw [absent]; rfl
      split at done
      · obtain ⟨order, rfl, placed⟩ := ConfSimple.orderVar_done (by exact flags)
          (fun _ => by simp [ConfSimple.push, sectionAt, ConfLine.sectionBehind]) done
        exact ⟨one_line, ⟨_, _, rfl⟩, ConfSimple.find_set flags rfl empty rfl,
          .inr ⟨_, .inr rfl, placed⟩⟩
      · obtain ⟨order, rfl, placed⟩ := ConfSimple.orderVar_done (by exact flags)
          (by exact current) done
        exact ⟨one_line, ⟨_, _, rfl⟩, ConfSimple.find_set flags rfl empty rfl,
          .inr ⟨_, .inl rfl, placed⟩⟩
    · rename_i submap found
      have filled : (VarMap.find conf.submaps sk).getD [] = submap := by rw [found]; rfl
      split at done
      · rename_i existing
        cases done
        refine ⟨one_line, ⟨_, _, rfl⟩, ConfSimple.find_set flags rfl filled rfl, .inl ⟨?_, rfl⟩⟩
        simpa [ConfSimple.find_of_flags flags, found] using existing
      · obtain ⟨order, rfl, placed⟩ := ConfSimple.orderVar_done (by exact flags)
          (by exact current) done
        exact ⟨one_line, ⟨_, _, rfl⟩, ConfSimple.find_set flags rfl filled rfl,
          .inr ⟨_, .inl rfl, placed⟩⟩

end

end Upmpdcli.Conftree
