import Mathlib.Data.List.Dedup

set_option autoImplicit false

/- Joins of the rows of a table with a table of pairs, of a key and a value. -/
namespace Junction

variable {ρ κ ν : Type} [DecidableEq κ]

/-- The values of the rows. -/
def values (key : ρ → κ) (pairs : List (κ × ν)) (rows : List ρ) : List ν :=
  rows.flatMap fun row => (pairs.filter fun pair => pair.1 = key row).map Prod.snd

variable {key : ρ → κ} {pairs : List (κ × ν)} {value : ν} {rows : List ρ} {row : ρ}

theorem mem_values : value ∈ values key pairs rows ↔ ∃ row ∈ rows, (key row, value) ∈ pairs := by
  simp only [values, List.mem_flatMap, List.mem_map, List.mem_filter, decide_eq_true_eq]
  constructor
  · rintro ⟨row, inside, ⟨k, v⟩, ⟨there, same_key⟩, rfl⟩
    subst same_key
    exact ⟨row, inside, there⟩
  · rintro ⟨row, inside, there⟩
    exact ⟨row, inside, (key row, value), ⟨there, rfl⟩, rfl⟩

variable [DecidableEq ν]

/-- The rows which have a value. A row is there once for each of its pairs. -/
def withValue (key : ρ → κ) (pairs : List (κ × ν)) (value : ν) (rows : List ρ) : List ρ :=
  rows.flatMap fun row =>
    (pairs.filter fun pair => pair.1 = key row ∧ pair.2 = value).map fun _ => row

theorem mem_withValue :
    row ∈ withValue key pairs value rows ↔ row ∈ rows ∧ (key row, value) ∈ pairs := by
  simp only [withValue, List.mem_flatMap, List.mem_map, List.mem_filter, decide_eq_true_eq]
  constructor
  · rintro ⟨row, inside, ⟨k, v⟩, ⟨there, same_key, same_value⟩, rfl⟩
    subst same_key same_value
    exact ⟨inside, there⟩
  · rintro ⟨inside, there⟩
    exact ⟨row, inside, (key row, value), ⟨there, rfl, rfl⟩, rfl⟩

/-- Where no pair is there twice, no row is. -/
theorem withValue_eq_filter (distinct : pairs.Nodup) (value : ν) (rows : List ρ) :
    withValue key pairs value rows = rows.filter fun row => (key row, value) ∈ pairs := by
  have found (row : ρ) : (pairs.filter fun pair => pair.1 = key row ∧ pair.2 = value) =
      if (key row, value) ∈ pairs then [(key row, value)] else [] := by
    have same : (pairs.filter fun pair => pair.1 = key row ∧ pair.2 = value) =
        pairs.filter (· = (key row, value)) := by
      apply List.filter_congr
      intro pair _
      simp [Prod.ext_iff]
    rw [same, List.filter_eq]
    split
    · rename_i there
      rw [List.count_eq_one_of_mem distinct there]
      rfl
    · rename_i lacking
      rw [List.count_eq_zero_of_not_mem lacking]
      rfl
  induction rows with
  | nil => rfl
  | cons row rest ih =>
      unfold withValue at ih ⊢
      rw [List.flatMap_cons, ih, found, List.filter_cons]
      by_cases there : (key row, value) ∈ pairs
      · simp [there]
      · simp [there]

/-- The rows which are kept keep their values. -/
theorem withValue_filter (keep : ρ → Bool) (value : ν) (rows : List ρ) :
    withValue key pairs value (rows.filter keep) =
      (withValue key pairs value rows).filter keep := by
  induction rows with
  | nil => rfl
  | cons row rest ih =>
      have copies : (withValue key pairs value [row]).filter keep =
          if keep row then withValue key pairs value [row] else [] := by
        split
        · rename_i kept
          refine List.filter_eq_self.mpr fun other member => ?_
          rw [List.mem_singleton.mp (mem_withValue.mp member).1]
          exact kept
        · rename_i dropped
          refine List.filter_eq_nil_iff.mpr fun other member => ?_
          rw [List.mem_singleton.mp (mem_withValue.mp member).1]
          exact dropped
      have append (first second : List ρ) : withValue key pairs value (first ++ second) =
          withValue key pairs value first ++ withValue key pairs value second :=
        List.flatMap_append
      rw [← List.singleton_append, append, List.filter_append, List.filter_append, append, ih,
        copies]
      congr 1
      by_cases kept : keep row = true
      · simp [kept]
      · simp [kept, withValue]

theorem dedup_eq_singleton {found : List ν} :
    found.dedup = [value] ↔ found ≠ [] ∧ ∀ other ∈ found, other = value := by
  constructor
  · intro single
    have members : ∀ other, other ∈ found ↔ other = value := fun other => by
      rw [← List.mem_dedup, single, List.mem_singleton]
    exact ⟨List.ne_nil_of_mem ((members value).mpr rfl), fun other => (members other).mp⟩
  · rintro ⟨some_value, same⟩
    rw [List.eq_replicate_of_mem same]
    exact List.replicate_dedup (Nat.ne_of_gt (List.length_pos_of_ne_nil some_value))

/-- There is more than one value when two are different. -/
theorem one_lt_length_dedup {found : List ν} :
    1 < found.dedup.length ↔ ∃ value ∈ found, ∃ other ∈ found, value ≠ other := by
  have members : ∀ value, value ∈ found.dedup ↔ value ∈ found := fun _ => List.mem_dedup
  have distinct := List.nodup_dedup found
  simp only [← members]
  match found.dedup, distinct with
  | [], _ => simp
  | [only], _ => simp
  | first :: second :: rest, distinct =>
      have differ : first ≠ second := by
        rintro rfl
        exact (List.nodup_cons.mp distinct).1 List.mem_cons_self
      refine iff_of_true (by simp) ?_
      exact ⟨first, List.mem_cons_self, second, by simp, differ⟩

end Junction
