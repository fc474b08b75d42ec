import Mathlib.Data.List.Induction
import Mathlib.Order.Bounds.Basic
import Mathlib.Order.MinMax

set_option autoImplicit false

/- Numbers which are raised so that each is above the ones in front of it. -/
namespace Raise

/-- The number, or the one above the last one if that is higher. -/
def raise : Option Int → Int → Int
  | none, n => n
  | some last, n => max n (last + 1)

/-- The last of the raised numbers. -/
def last (front : Option Int) (numbers : List Int) : Option Int :=
  numbers.foldl (fun last n => some (raise last n)) front

/-- How high each number makes the last one at least. -/
def heights (numbers : List Int) : Set Int :=
  {h | ∃ before n behind, numbers = before ++ n :: behind ∧ h = n + (behind.length : Int)}

theorem mem_heights_append (numbers : List Int) (n h : Int) :
    h ∈ heights (numbers ++ [n]) ↔ h = n ∨ ∃ g ∈ heights numbers, h = g + 1 := by
  constructor
  · rintro ⟨before, m, behind, split, rfl⟩
    induction behind using List.reverseRecOn with
    | nil =>
        obtain ⟨-, same⟩ := List.append_inj' split rfl
        cases same
        exact .inl (by simp)
    | append_singleton behind k _ =>
        rw [← List.cons_append, ← List.append_assoc] at split
        obtain ⟨rfl, -⟩ := List.append_inj' split rfl
        refine .inr ⟨_, ⟨before, m, behind, rfl, rfl⟩, ?_⟩
        rw [List.length_append, List.length_singleton]
        omega
  · rintro (rfl | ⟨g, ⟨before, m, behind, rfl, rfl⟩, rfl⟩)
    · exact ⟨numbers, h, [], rfl, by simp⟩
    · refine ⟨before, m, behind ++ [n], by simp, ?_⟩
      rw [List.length_append, List.length_singleton]
      omega

theorem heights_nil : heights [] = ∅ := by
  ext h
  simp [heights]

/-- The last of the raised numbers is as high as the highest of them makes it. -/
theorem last_isGreatest {numbers : List Int} (some_number : numbers ≠ []) :
    ∃ h, last none numbers = some h ∧ IsGreatest (heights numbers) h := by
  induction numbers using List.reverseRecOn with
  | nil => exact absurd rfl some_number
  | append_singleton numbers n ih =>
      have step : last none (numbers ++ [n]) = some (raise (last none numbers) n) := by
        simp [last]
      rw [step]
      refine ⟨_, rfl, ?_⟩
      by_cases alone : numbers = []
      · subst alone
        refine ⟨(mem_heights_append [] n n).mpr (.inl rfl), fun h member => ?_⟩
        rcases (mem_heights_append [] n h).mp member with rfl | ⟨g, inside, -⟩
        · exact Int.le_refl h
        · rw [heights_nil] at inside
          exact absurd inside (Set.notMem_empty g)
      · obtain ⟨h, is_last, inside, highest⟩ := ih alone
        rw [is_last]
        change IsGreatest _ (max n (h + 1))
        constructor
        · rw [mem_heights_append]
          rcases max_choice n (h + 1) with own | above
          · exact .inl own
          · exact .inr ⟨h, inside, above⟩
        · intro k member
          rcases (mem_heights_append numbers n k).mp member with rfl | ⟨g, lower, rfl⟩
          · exact le_max_left k (h + 1)
          · have := highest lower
            exact le_trans (by omega) (le_max_right n (h + 1))

theorem last_eq_some_iff (numbers : List Int) (h : Int) :
    last none numbers = some h ↔ IsGreatest (heights numbers) h := by
  by_cases alone : numbers = []
  · subst alone
    refine iff_of_false (Option.some_ne_none h).symm fun greatest => ?_
    rw [heights_nil] at greatest
    exact greatest.1
  · obtain ⟨g, is_last, greatest⟩ := last_isGreatest alone
    rw [is_last, Option.some.injEq]
    constructor
    · rintro rfl
      exact greatest
    · exact greatest.unique

end Raise
