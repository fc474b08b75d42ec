import Mathlib.Data.List.Nodup
import Mathlib.Data.List.Lookmap

set_option autoImplicit false

/- Dictionaries which remember in what order their keys were first inserted. -/
namespace Dict

variable {κ ν : Type*} [DecidableEq κ]

/-- The assignment of a key, which stays where it is when it is there. -/
def set : List (κ × ν) → κ → ν → List (κ × ν)
  | [], key, value => [(key, value)]
  | entry :: rest, key, value =>
      if entry.1 = key then (key, value) :: rest else entry :: set rest key value

theorem set_cons_of_ne {key : κ} {entry : κ × ν} (differ : entry.1 ≠ key)
    (rest : List (κ × ν)) (value : ν) : set (entry :: rest) key value = entry :: set rest key value :=
  if_neg differ

omit [DecidableEq κ] in
theorem lookup_cons_of_ne [BEq κ] [LawfulBEq κ] {key : κ} {entry : κ × ν}
    (differ : entry.1 ≠ key) (rest : List (κ × ν)) : (entry :: rest).lookup key = rest.lookup key := by
  rw [List.lookup_cons, beq_false_of_ne (Ne.symm differ)]

theorem lookup_set [BEq κ] [LawfulBEq κ] (entries : List (κ × ν)) (key other : κ)
    (value : ν) :
    (set entries key value).lookup other =
      if other = key then some value else entries.lookup other := by
  induction entries with
  | nil =>
      rw [set, List.lookup_cons, List.lookup_nil]
      by_cases same : other = key
      · simp [same]
      · simp [same, beq_false_of_ne same]
  | cons entry rest ih =>
      obtain ⟨name, content⟩ := entry
      rw [set]
      by_cases here : name = key
      · subst here
        rw [if_pos rfl, List.lookup_cons, List.lookup_cons]
        by_cases same : other = name
        · simp [same]
        · simp [same, beq_false_of_ne same]
      · rw [if_neg here, List.lookup_cons, List.lookup_cons, ih]
        by_cases same : other = key
        · subst same
          simp [beq_false_of_ne (Ne.symm here)]
        · simp [same]

@[simp] theorem lookup_set_self [BEq κ] [LawfulBEq κ] (entries : List (κ × ν)) (key : κ)
    (value : ν) : (set entries key value).lookup key = some value := by
  rw [lookup_set, if_pos rfl]

theorem lookup_set_of_ne [BEq κ] [LawfulBEq κ] {key other : κ} (differ : other ≠ key)
    (entries : List (κ × ν)) (value : ν) :
    (set entries key value).lookup other = entries.lookup other := by
  rw [lookup_set, if_neg differ]

/-- The assignment of what is there already. -/
theorem set_eq_self [BEq κ] [LawfulBEq κ] {entries : List (κ × ν)} {key : κ} {value : ν}
    (there : entries.lookup key = some value) : set entries key value = entries := by
  induction entries with
  | nil => cases there
  | cons entry rest ih =>
      obtain ⟨name, content⟩ := entry
      rw [set]
      by_cases here : name = key
      · subst here
        rw [List.lookup_cons_self, Option.some.injEq] at there
        rw [if_pos rfl, there]
      · rw [lookup_cons_of_ne here] at there
        rw [if_neg here, ih there]

/-- The keys, with a new one at the end. -/
theorem keys_set (entries : List (κ × ν)) (key : κ) (value : ν) :
    (set entries key value).map Prod.fst =
      if key ∈ entries.map Prod.fst then entries.map Prod.fst
      else entries.map Prod.fst ++ [key] := by
  induction entries with
  | nil => simp [set]
  | cons entry rest ih =>
      obtain ⟨name, content⟩ := entry
      rw [set]
      by_cases here : name = key
      · simp [here]
      · simp only [here, if_false, List.map_cons, ih, List.mem_cons, Ne.symm here, false_or]
        split <;> rfl

theorem mem_set {entries : List (κ × ν)} {key : κ} {value : ν} {entry : κ × ν}
    (member : entry ∈ set entries key value) : entry = (key, value) ∨ entry ∈ entries := by
  induction entries with
  | nil => exact .inl (List.mem_singleton.mp member)
  | cons first rest ih =>
      rw [set] at member
      split at member
      · rcases List.mem_cons.mp member with same | later
        · exact .inl same
        · exact .inr (List.mem_cons_of_mem _ later)
      · rcases List.mem_cons.mp member with same | later
        · exact .inr (same ▸ List.mem_cons_self)
        · exact (ih later).imp id (List.mem_cons_of_mem _ ·)

omit [DecidableEq κ] in
theorem mem_of_lookup [BEq κ] [LawfulBEq κ] {entries : List (κ × ν)} {key : κ} {value : ν}
    (there : entries.lookup key = some value) : (key, value) ∈ entries := by
  obtain ⟨before, after, split, _⟩ := List.lookup_eq_some_iff.mp there
  rw [split]
  exact List.mem_append_right _ List.mem_cons_self

theorem nodup_set {entries : List (κ × ν)} (distinct : (entries.map Prod.fst).Nodup) (key : κ)
    (value : ν) : ((set entries key value).map Prod.fst).Nodup := by
  rw [keys_set]
  split
  · exact distinct
  · rename_i absent
    exact List.concat_eq_append ▸ distinct.concat absent

theorem set_of_not_mem {entries : List (κ × ν)} {key : κ}
    (absent : key ∉ entries.map Prod.fst) (value : ν) :
    set entries key value = entries ++ [(key, value)] := by
  induction entries with
  | nil => rfl
  | cons entry rest ih =>
      rw [List.map_cons, List.mem_cons, not_or] at absent
      rw [set, if_neg (Ne.symm absent.1), ih absent.2, List.cons_append]

/-- A key which is set in the course of a loop is there in the end. -/
theorem isSome_lookup_foldl_set [BEq κ] [LawfulBEq κ] {α : Type*} {f : α → κ} {g : α → ν}
    {items : List α} {entries : List (κ × ν)} {key : κ}
    (there : key ∈ items.map f ∨ (entries.lookup key).isSome) :
    ((items.foldl (fun entries item => set entries (f item) (g item)) entries).lookup key).isSome := by
  induction items generalizing entries with
  | nil => exact there.resolve_left List.not_mem_nil
  | cons item rest ih =>
      rw [List.foldl_cons]
      apply ih
      rw [List.map_cons, List.mem_cons] at there
      by_cases here : key = f item
      · rw [here, lookup_set_self]
        exact .inr rfl
      · rw [lookup_set_of_ne here]
        exact there.imp_left fun inside => inside.resolve_left here

end Dict
