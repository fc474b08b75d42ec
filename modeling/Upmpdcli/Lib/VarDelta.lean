import Upmpdcli.Lib.VarMap

set_option autoImplicit false

/- Maps of variables with a value for those which are missing, and the events which tell the
values that differ from a base. -/
namespace VarMap

variable {κ ν : Type*} [DecidableEq κ] (missing : ν)

def value (entries : List (κ × ν)) (key : κ) : ν := (entries.lookup key).getD missing

/-- Two maps give the same values to the variables which satisfy `P`. -/
def Agree (P : κ → Prop) (left right : List (κ × ν)) : Prop :=
  ∀ key, P key → value missing left key = value missing right key

variable {missing} {P : κ → Prop}

theorem Agree.refl (entries : List (κ × ν)) : Agree missing P entries entries := fun _ _ => rfl

theorem Agree.trans {first second third : List (κ × ν)} (left : Agree missing P first second)
    (right : Agree missing P second third) : Agree missing P first third :=
  fun key holds => (left key holds).trans (right key holds)

variable [DecidableEq ν]

variable (missing) in
/-- The entries of `newer` with another value than the one `old` gives. -/
def changes (old newer : List (κ × ν)) : List (κ × ν) :=
  newer.filter fun entry => entry.2 ≠ value missing old entry.1

theorem lookup_changes (old : List (κ × ν)) {newer : List (κ × ν)}
    (distinct : (newer.map Prod.fst).Nodup) (key : κ) :
    (changes missing old newer).lookup key =
      if newer.lookup key = some (value missing old key) then none else newer.lookup key := by
  induction newer with
  | nil => exact (ite_self (List.lookup key [])).symm
  | cons entry rest ih =>
      obtain ⟨name, content⟩ := entry
      rw [List.map_cons, List.nodup_cons] at distinct
      have later := ih distinct.2
      unfold changes at later ⊢
      rw [List.filter_cons]
      by_cases here : key = name
      · subst here
        have absent := lookup_eq_none_of_not_mem distinct.1
        by_cases kept : content = value missing old key
        · rw [absent] at later
          simpa [kept] using later
        · simp [kept]
      · have other : (key == name) = false := beq_false_of_ne here
        by_cases kept : content = value missing old name
        · simpa [kept, other, List.lookup_cons] using later
        · simpa [kept, other, List.lookup_cons] using later

section Events

variable {old newer replica : List (κ × ν)}
  (stable : ∀ key, newer.lookup key = none → old.lookup key = none)

include stable

/-- A replica of the base becomes one of the new map, also for a variable which gets the value
of a missing one. -/
theorem agree_overlay_changes (distinct : (newer.map Prod.fst).Nodup)
    (replicates : Agree missing P replica old) :
    Agree missing P (overlay replica (changes missing old newer)) newer := by
  intro key holds
  have before : (replica.lookup key).getD missing = value missing old key := replicates key holds
  unfold value at before ⊢
  rw [lookup_overlay, lookup_changes old distinct]
  cases found : newer.lookup key with
  | none =>
      rw [ite_self, Option.none_or, before, stable key found]
  | some content =>
      by_cases kept : content = value missing old key
      · rw [if_pos (congrArg some kept), Option.none_or, before]
        exact kept.symm
      · rw [if_neg fun same => kept (Option.some.inj same)]
        rfl

/-- Where no variable with `P` is told to have changed the base is a replica itself. -/
theorem agree_of_changes (silent : ∀ entry ∈ changes missing old newer, ¬ P entry.1) :
    Agree missing P old newer := by
  intro key holds
  unfold value
  cases found : newer.lookup key with
  | none => rw [stable key found]
  | some content =>
      by_contra other
      have member : (key, content) ∈ newer := by
        obtain ⟨before, behind, same, -⟩ := List.lookup_eq_some_iff.mp found
        rw [same]
        exact List.mem_append_right _ List.mem_cons_self
      exact silent (key, content)
        (List.mem_filter.mpr ⟨member, decide_eq_true fun same => other same.symm⟩) holds

end Events

end VarMap
