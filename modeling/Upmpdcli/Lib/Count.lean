import Mathlib.Data.Finset.Card

set_option autoImplicit false

/- Counters of a program whose threads are at places of its code: how many of them are inside of
a section. -/
namespace Count

variable {ι : Type*} {n : Nat} {inside inside' : ι → Prop} {thread : ι}

/-- So many threads are inside. -/
def Counts (n : Nat) (inside : ι → Prop) : Prop :=
  ∃ threads : Finset ι, (∀ thread, thread ∈ threads ↔ inside thread) ∧ threads.card = n

theorem counts_zero (nobody : ∀ thread, ¬ inside thread) : Counts 0 inside :=
  ⟨∅, fun thread => iff_of_false (Finset.notMem_empty thread) (nobody thread), rfl⟩

theorem Counts.outside_of_zero (counts : Counts 0 inside) (thread : ι) : ¬ inside thread := by
  obtain ⟨threads, members, card⟩ := counts
  rw [Finset.card_eq_zero] at card
  rw [← members, card]
  exact Finset.notMem_empty thread

theorem Counts.congr (counts : Counts n inside) (same : ∀ thread, inside' thread ↔ inside thread) :
    Counts n inside' := by
  obtain ⟨threads, members, card⟩ := counts
  exact ⟨threads, fun thread => (members thread).trans (same thread).symm, card⟩

variable [DecidableEq ι]

theorem Counts.enter (counts : Counts n inside) (outside : ¬ inside thread)
    (here : inside' thread) (same : ∀ other, other ≠ thread → (inside' other ↔ inside other)) :
    Counts (n + 1) inside' := by
  obtain ⟨threads, members, card⟩ := counts
  refine ⟨insert thread threads, ?_, ?_⟩
  · intro other
    rw [Finset.mem_insert, members]
    by_cases at_thread : other = thread
    · subst at_thread
      exact iff_of_true (.inl rfl) here
    · rw [same other at_thread]
      exact or_iff_right at_thread
  · rw [Finset.card_insert_of_notMem (mt (members thread).mp outside), card]

theorem Counts.leave (counts : Counts n inside) (here : inside thread) (gone : ¬ inside' thread)
    (same : ∀ other, other ≠ thread → (inside' other ↔ inside other)) :
    Counts (n - 1) inside' := by
  obtain ⟨threads, members, card⟩ := counts
  refine ⟨threads.erase thread, ?_, ?_⟩
  · intro other
    rw [Finset.mem_erase, members]
    by_cases at_thread : other = thread
    · subst at_thread
      exact iff_of_false (fun both => both.1 rfl) gone
    · rw [same other at_thread]
      exact and_iff_right at_thread
  · rw [Finset.card_erase_of_mem ((members thread).mpr here), card]

end Count
