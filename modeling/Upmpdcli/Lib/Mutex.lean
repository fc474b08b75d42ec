import Mathlib.Logic.Function.Basic

set_option autoImplicit false

/- Mutexes of a program whose threads are at places of its code: who has a mutex is who is
inside of its section. -/
namespace Mutex

variable {ι : Type*} {owner : Option ι} {inside inside' : ι → Prop} {thread : ι}

/-- The owner is inside, and nobody else is. -/
def Held (owner : Option ι) (inside : ι → Prop) : Prop :=
  ∀ thread, owner = some thread ↔ inside thread

theorem Held.owner_eq (held : Held owner inside) (here : inside thread) : owner = some thread :=
  (held thread).mpr here

theorem Held.unique (held : Held owner inside) {first second : ι} (one : inside first)
    (two : inside second) : first = second :=
  Option.some.inj ((held.owner_eq one).symm.trans (held.owner_eq two))

theorem Held.outside_of_free (held : Held none inside) (thread : ι) : ¬ inside thread :=
  fun here => by cases held.owner_eq here

/-- A step within the section, or out of it. -/
theorem Held.congr (held : Held owner inside) (same : ∀ thread, inside' thread ↔ inside thread) :
    Held owner inside' :=
  fun thread => (held thread).trans (same thread).symm

theorem Held.lock (held : Held none inside) (here : inside' thread)
    (same : ∀ other, other ≠ thread → (inside' other ↔ inside other)) :
    Held (some thread) inside' := by
  intro other
  by_cases at_thread : other = thread
  · subst at_thread
    exact iff_of_true rfl here
  · refine iff_of_false (fun owned => at_thread (Option.some.inj owned).symm) ?_
    rw [same other at_thread]
    exact held.outside_of_free other

theorem Held.unlock (held : Held owner inside) (here : inside thread) (gone : ¬ inside' thread)
    (same : ∀ other, other ≠ thread → (inside' other ↔ inside other)) :
    Held none inside' := by
  intro other
  refine iff_of_false nofun ?_
  by_cases at_thread : other = thread
  · subst at_thread
    exact gone
  · rw [same other at_thread]
    exact fun also => at_thread (held.unique also here)

end Mutex
