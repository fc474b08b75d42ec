import Mathlib.Data.List.Basic

set_option autoImplicit false

/- The threads of a program and its waits on a condition variable. A notified thread is still
in its wait until it has the mutex again. -/
namespace Condvar

/-- A thread is somewhere in the program, or in a wait for some reason. -/
inductive Waiter (α κ : Type)
  | out (place : α)
  | wait (reason : κ) (woken : Bool)
deriving DecidableEq

variable {α κ : Type}

namespace Waiter

def waits : Waiter α κ → Bool
  | out _ => false
  | wait _ _ => true

/-- In a wait of this kind, with no wake-up pending. -/
def asleep (kind : κ → Bool) : Waiter α κ → Bool
  | out _ => false
  | wait reason woken => kind reason && !woken

/-- In a wait of this kind, on its way out of it. -/
def woken (kind : κ → Bool) : Waiter α κ → Bool
  | out _ => false
  | wait reason woken => kind reason && woken

def wake : Waiter α κ → Waiter α κ
  | out place => out place
  | wait reason _ => wait reason true

@[simp] theorem waits_out (place : α) : (out place : Waiter α κ).waits = false := rfl

@[simp] theorem waits_wait (reason : κ) (woken : Bool) :
    (wait reason woken : Waiter α κ).waits = true := rfl

@[simp] theorem asleep_out (kind : κ → Bool) (place : α) : asleep kind (out place) = false := rfl

@[simp] theorem asleep_wait (kind : κ → Bool) (reason : κ) (woken : Bool) :
    asleep kind (wait reason woken : Waiter α κ) = (kind reason && !woken) := rfl

@[simp] theorem woken_out (kind : κ → Bool) (place : α) : woken kind (out place) = false := rfl

@[simp] theorem woken_wait (kind : κ → Bool) (reason : κ) (woken' : Bool) :
    woken kind (wait reason woken' : Waiter α κ) = (kind reason && woken') := rfl

@[simp] theorem waits_wake (thread : Waiter α κ) : thread.wake.waits = thread.waits := by
  cases thread with
  | out place => rfl
  | wait reason woken => rfl

@[simp] theorem asleep_wake (kind : κ → Bool) (thread : Waiter α κ) :
    asleep kind thread.wake = false := by
  cases thread with
  | out place => rfl
  | wait reason woken => simp [wake]

end Waiter

open Waiter

/-- All the sleeping threads are woken. -/
def notifyAll (threads : List (Waiter α κ)) : List (Waiter α κ) := threads.map wake

/-- One sleeping thread is woken, which the system chooses. The choice of another one is no
choice. -/
def notifyOne (threads : List (Waiter α κ)) (choice : Nat) : Option (List (Waiter α κ)) :=
  if threads.any (asleep fun _ => true) then
    match threads[choice]? with
    | some (.wait reason false) => some (threads.set choice (.wait reason true))
    | _ => none
  else some threads

theorem notifyOne_cases {threads threads' : List (Waiter α κ)} {choice : Nat}
    (notified : notifyOne threads choice = some threads') :
    (threads' = threads ∧ ∀ kind, threads.countP (asleep kind) = 0) ∨
      ∃ reason, threads[choice]? = some (.wait reason false) ∧
        threads' = threads.set choice (.wait reason true) := by
  unfold notifyOne at notified
  split at notified
  · split at notified
    · rename_i reason there
      cases notified
      exact .inr ⟨reason, there, rfl⟩
    · cases notified
  · rename_i nobody
    cases notified
    left
    refine ⟨rfl, fun kind => List.countP_eq_zero.mpr fun thread member dozing => nobody ?_⟩
    cases thread with
    | out place => cases dozing
    | wait reason woken =>
        rw [asleep_wait, Bool.and_eq_true] at dozing
        exact List.any_eq_true.mpr ⟨_, member, by simpa using dozing.2⟩

theorem countP_waits_notifyAll (threads : List (Waiter α κ)) :
    (notifyAll threads).countP waits = threads.countP waits := by
  unfold notifyAll
  rw [List.countP_map]
  congr 1
  funext thread
  exact waits_wake thread

theorem countP_asleep_notifyAll (kind : κ → Bool) (threads : List (Waiter α κ)) :
    (notifyAll threads).countP (asleep kind) = 0 := by
  unfold notifyAll
  rw [List.countP_map, List.countP_eq_zero]
  intro thread member
  simp

/-- What one thread's move changes in a count of them. -/
theorem countP_set_add {threads : List (Waiter α κ)} {i : Nat} {before : Waiter α κ}
    (here : threads[i]? = some before) (after : Waiter α κ) (p : Waiter α κ → Bool) :
    (threads.set i after).countP p + (p before).toNat = threads.countP p + (p after).toNat := by
  obtain ⟨bound, rfl⟩ := List.getElem?_eq_some_iff.mp here
  have least : (if p threads[i] = true then 1 else 0) ≤ threads.countP p :=
    List.boole_getElem_le_countP bound
  rw [List.countP_set bound]
  generalize threads.countP p = count at least ⊢
  generalize p threads[i] = one at least ⊢
  cases one with
  | false =>
      cases p after with
      | false => simp
      | true => simp
  | true =>
      cases p after with
      | false => simpa using Nat.sub_add_cancel least
      | true => simpa using Nat.sub_add_cancel least

theorem countP_asleep_le (kind : κ → Bool) (threads : List (Waiter α κ)) :
    threads.countP (asleep kind) ≤ threads.countP waits :=
  List.countP_mono_left fun thread _ dozing => by
    cases thread with
    | out place => cases dozing
    | wait reason woken => rfl

section Move

variable {threads : List (Waiter α κ)} {i : Nat} {place : α} {reason : κ} (kind : κ → Bool)

/-- A thread begins to wait. -/
theorem countP_sleep (here : threads[i]? = some (.out place)) (reason : κ) :
    (threads.set i (.wait reason false)).countP waits = threads.countP waits + 1 ∧
      (threads.set i (.wait reason false)).countP (asleep kind) =
        threads.countP (asleep kind) + (kind reason).toNat ∧
      (threads.set i (.wait reason false)).countP (woken kind) = threads.countP (woken kind) := by
  have all := countP_set_add here (.wait reason false) waits
  have sleeping := countP_set_add here (.wait reason false) (asleep kind)
  have waking := countP_set_add here (.wait reason false) (woken kind)
  simp only [waits_out, waits_wait, asleep_out, asleep_wait, woken_out, woken_wait,
    Bool.toNat_false, Bool.toNat_true, Bool.not_false, Bool.and_true, Bool.and_false,
    Nat.add_zero] at all sleeping waking
  exact ⟨all, sleeping, waking⟩

/-- A thread comes out of its wait, woken or for no reason. -/
theorem countP_leave {woken' : Bool} (here : threads[i]? = some (.wait reason woken')) (place : α) :
    (threads.set i (.out place)).countP waits + 1 = threads.countP waits ∧
      (threads.set i (.out place)).countP (asleep kind) ≤ threads.countP (asleep kind) ∧
      threads.countP (woken kind) ≤
        (threads.set i (.out place)).countP (woken kind) + (kind reason).toNat := by
  have all := countP_set_add here (.out place) waits
  have sleeping := countP_set_add here (.out place) (asleep kind)
  have waking := countP_set_add here (.out place) (woken kind)
  have least : (kind reason && woken').toNat ≤ (kind reason).toNat := by
    cases kind reason with
    | false => exact Nat.le_refl 0
    | true => exact Bool.toNat_le woken'
  simp only [waits_out, waits_wait, asleep_out, asleep_wait, woken_out, woken_wait,
    Bool.toNat_false, Bool.toNat_true, Nat.add_zero] at all sleeping waking
  omega

/-- A thread is notified. -/
theorem countP_wake (here : threads[i]? = some (.wait reason false)) :
    (threads.set i (.wait reason true)).countP waits = threads.countP waits ∧
      (threads.set i (.wait reason true)).countP (asleep kind) + (kind reason).toNat =
        threads.countP (asleep kind) ∧
      (threads.set i (.wait reason true)).countP (woken kind) =
        threads.countP (woken kind) + (kind reason).toNat := by
  have all := countP_set_add here (.wait reason true) waits
  have sleeping := countP_set_add here (.wait reason true) (asleep kind)
  have waking := countP_set_add here (.wait reason true) (woken kind)
  simp only [waits_wait, asleep_wait, woken_wait, Bool.toNat_false, Bool.toNat_true,
    Bool.not_false, Bool.not_true, Bool.and_true, Bool.and_false, Nat.add_zero]
    at all sleeping waking
  exact ⟨Nat.add_right_cancel all, sleeping, waking⟩

/-- A thread goes on outside of the waits. -/
theorem countP_move (here : threads[i]? = some (.out place)) (place' : α) :
    (threads.set i (.out place')).countP waits = threads.countP waits ∧
      (threads.set i (.out place')).countP (asleep kind) = threads.countP (asleep kind) ∧
      (threads.set i (.out place')).countP (woken kind) = threads.countP (woken kind) :=
  ⟨countP_set_add here (.out place') waits, countP_set_add here (.out place') (asleep kind),
    countP_set_add here (.out place') (woken kind)⟩

end Move

end Condvar
