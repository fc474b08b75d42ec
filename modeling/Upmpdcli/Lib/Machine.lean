import Mathlib.Data.List.Basic

set_option autoImplicit false

/- Finite runs of a partial machine with outputs. A refused action makes a run
impossible, so an interleaving of several parties is one list of actions and the
enabling conditions of each party are refusals of the step function. -/
namespace Machine

variable {σ α β : Type*}

/-- Execute the actions in order and collect the outputs. -/
def run (step : σ → α → Option (σ × β)) : σ → List α → Option (σ × List β)
  | state, [] => some (state, [])
  | state, action :: rest =>
      match step state action with
      | none => none
      | some (next, out) =>
          match run step next rest with
          | none => none
          | some (last, outs) => some (last, out :: outs)

/-- Every step taken by the actions satisfies `P`, given the state before it, the
action, the state after it and the output. Nothing is said of a refused action. -/
def Along (P : σ → α → σ → β → Prop) (step : σ → α → Option (σ × β)) : σ → List α → Prop
  | _, [] => True
  | state, action :: rest =>
      match step state action with
      | none => True
      | some (next, out) => P state action next out ∧ Along P step next rest

instance decidableAlong (P : σ → α → σ → β → Prop) (step : σ → α → Option (σ × β))
    [decide : ∀ s a t b, Decidable (P s a t b)] :
    ∀ state actions, Decidable (Along P step state actions)
  | _, [] => .isTrue trivial
  | state, action :: rest =>
      match taken : step state action with
      | none => .isTrue (by simp only [Along, taken])
      | some (next, out) =>
          have := decidableAlong P step next rest
          decidable_of_iff (P state action next out ∧ Along P step next rest)
            (by simp only [Along, taken])

variable {step : σ → α → Option (σ × β)}

@[simp] theorem run_nil (state : σ) : run step state [] = some (state, []) := rfl

theorem run_cons_iff (state last : σ) (action : α) (rest : List α) (outs : List β) :
    run step state (action :: rest) = some (last, outs) ↔
      ∃ next out tail, step state action = some (next, out) ∧
        run step next rest = some (last, tail) ∧ outs = out :: tail := by
  cases taken : step state action with
  | none => simp [run, taken]
  | some result =>
      obtain ⟨next, out⟩ := result
      cases later : run step next rest with
      | none => simp [run, taken, later]
      | some result =>
          obtain ⟨final, tail⟩ := result
          simp only [run, taken, later, Option.some.injEq, Prod.mk.injEq]
          constructor
          · rintro ⟨rfl, rfl⟩
            exact ⟨next, out, tail, ⟨rfl, rfl⟩, by rw [later], rfl⟩
          · rintro ⟨next', out', tail', ⟨rfl, rfl⟩, same, rfl⟩
            rw [later] at same
            cases same
            exact ⟨rfl, rfl⟩

@[simp] theorem along_nil (P : σ → α → σ → β → Prop) (state : σ) :
    Along P step state [] := trivial

theorem along_cons_of_step {P : σ → α → σ → β → Prop} {state next : σ} {action : α} {out : β}
    {rest : List α} (taken : step state action = some (next, out)) :
    Along P step state (action :: rest) ↔
      P state action next out ∧ Along P step next rest := by
  simp only [Along, taken]

theorem along_append_of_run {P : σ → α → σ → β → Prop} {state middle : σ} {first second : List α}
    {outs : List β} (along : Along P step state (first ++ second))
    (ran : run step state first = some (middle, outs)) :
    Along P step state first ∧ Along P step middle second := by
  induction first generalizing state outs with
  | nil =>
      cases ran
      exact ⟨trivial, along⟩
  | cons action rest ih =>
      obtain ⟨next, out, tail, taken, later, -⟩ := (run_cons_iff _ _ _ _ _).mp ran
      rw [List.cons_append, along_cons_of_step taken] at along
      obtain ⟨head, behind⟩ := ih along.2 later
      exact ⟨(along_cons_of_step taken).mpr ⟨along.1, head⟩, behind⟩

theorem run_append_iff (state last : σ) (first second : List α) (outs : List β) :
    run step state (first ++ second) = some (last, outs) ↔
      ∃ middle head tail, run step state first = some (middle, head) ∧
        run step middle second = some (last, tail) ∧ outs = head ++ tail := by
  induction first generalizing state outs with
  | nil => simp
  | cons action rest ih =>
      simp only [List.cons_append, run_cons_iff, ih]
      constructor
      · rintro ⟨next, out, _, taken, ⟨middle, head, tail, ran, later, rfl⟩, rfl⟩
        exact ⟨middle, out :: head, tail, ⟨next, out, head, taken, ran, rfl⟩, later, rfl⟩
      · rintro ⟨middle, _, tail, ⟨next, out, head, taken, ran, rfl⟩, later, rfl⟩
        exact ⟨next, out, head ++ tail, taken, ⟨middle, head, tail, ran, later, rfl⟩, rfl⟩

/-- What holds of each step of a run holds of each output of it. -/
theorem forall₂_of_along {P : σ → α → σ → β → Prop} {state last : σ} {actions : List α}
    {outs : List β} (along : Along P step state actions)
    (ran : run step state actions = some (last, outs)) :
    List.Forall₂ (fun action out => ∃ s t, P s action t out) actions outs := by
  induction actions generalizing state outs with
  | nil =>
      cases ran
      exact .nil
  | cons action rest ih =>
      obtain ⟨next, out, tail, taken, later, rfl⟩ := (run_cons_iff _ _ _ _ _).mp ran
      rw [along_cons_of_step taken] at along
      exact .cons ⟨state, next, along.1⟩ (ih along.2 later)

/-- The induction rule. What one guarded step preserves, every guarded run preserves,
and what each guarded step establishes holds of every step of the run. -/
theorem along_of_invariant {inv : σ → Prop} {G P : σ → α → σ → β → Prop}
    (preserve : ∀ s a t b, inv s → G s a t b → step s a = some (t, b) → inv t ∧ P s a t b)
    (state : σ) (actions : List α) (start : inv state) (guarded : Along G step state actions) :
    Along P step state actions := by
  induction actions generalizing state with
  | nil => trivial
  | cons action rest ih =>
      cases taken : step state action with
      | none => simp only [Along, taken]
      | some result =>
          obtain ⟨next, out⟩ := result
          rw [along_cons_of_step taken] at guarded ⊢
          obtain ⟨kept, holds⟩ := preserve state action next out start guarded.1 taken
          exact ⟨holds, ih next kept guarded.2⟩

/-- A guard which is exact at every step of a run within the invariant is exact for runs.
It may use what is known of each action. -/
theorem along_iff_of_forall {inv : σ → Prop} {Q : α → Prop} {G P : σ → α → σ → β → Prop}
    (agree : ∀ s a t b, inv s → Q a → step s a = some (t, b) →
      (P s a t b ↔ G s a t b) ∧ (P s a t b → inv t))
    (state : σ) (actions : List α) (start : inv state) (known : ∀ action ∈ actions, Q action) :
    Along P step state actions ↔ Along G step state actions := by
  induction actions generalizing state with
  | nil => rfl
  | cons action rest ih =>
      cases taken : step state action with
      | none => simp only [Along, taken]
      | some result =>
          obtain ⟨next, out⟩ := result
          obtain ⟨same, keep⟩ := agree state action next out start (known action List.mem_cons_self)
            taken
          have later := fun kept => ih next kept fun other member =>
            known other (List.mem_cons_of_mem _ member)
          rw [along_cons_of_step taken, along_cons_of_step taken]
          constructor
          · rintro ⟨holds, rest⟩
            exact ⟨same.mp holds, (later (keep holds)).mp rest⟩
          · rintro ⟨allowed, rest⟩
            have holds := same.mpr allowed
            exact ⟨holds, (later (keep holds)).mpr rest⟩

theorem along_iff_of_invariant {inv : σ → Prop} {G P : σ → α → σ → β → Prop}
    (agree : ∀ s a t b, inv s → step s a = some (t, b) →
      (P s a t b ↔ G s a t b) ∧ (P s a t b → inv t))
    (state : σ) (actions : List α) (start : inv state) :
    Along P step state actions ↔ Along G step state actions :=
  along_iff_of_forall (Q := fun _ => True) (fun s a t b kept _ => agree s a t b kept)
    state actions start fun _ _ => trivial

/-- The rule for the state a run ends in, hence for every state it reaches. -/
theorem invariant_of_run {inv : σ → Prop} {G : σ → α → σ → β → Prop}
    (preserve : ∀ s a t b, inv s → G s a t b → step s a = some (t, b) → inv t)
    (state last : σ) (actions : List α) (outs : List β) (start : inv state)
    (guarded : Along G step state actions) (ran : run step state actions = some (last, outs)) :
    inv last := by
  induction actions generalizing state outs with
  | nil =>
      cases ran
      exact start
  | cons action rest ih =>
      obtain ⟨next, out, tail, taken, later, -⟩ := (run_cons_iff _ _ _ _ _).mp ran
      rw [along_cons_of_step taken] at guarded
      exact ih next tail (preserve state action next out start guarded.1 taken)
        guarded.2 later

/-- A guard may use what is known of each action. -/
theorem along_and_of_forall {G : σ → α → σ → β → Prop} {Q : α → Prop} (state : σ)
    (actions : List α) (known : ∀ action ∈ actions, Q action)
    (guarded : Along G step state actions) :
    Along (fun s a t b => G s a t b ∧ Q a) step state actions := by
  induction actions generalizing state with
  | nil => trivial
  | cons action rest ih =>
      cases taken : step state action with
      | none => simp only [Along, taken]
      | some result =>
          obtain ⟨next, out⟩ := result
          rw [along_cons_of_step taken] at guarded ⊢
          exact ⟨⟨guarded.1, known action List.mem_cons_self⟩,
            ih next (fun other member => known other (List.mem_cons_of_mem _ member)) guarded.2⟩

/-- An unguarded machine is one guarded by nothing. -/
theorem along_true (step : σ → α → Option (σ × β)) (state : σ) (actions : List α) :
    Along (fun _ _ _ _ => True) step state actions := by
  induction actions generalizing state with
  | nil => trivial
  | cons action rest ih =>
      cases taken : step state action with
      | none => simp only [Along, taken]
      | some result => exact (along_cons_of_step taken).mpr ⟨trivial, ih result.1⟩

end Machine
