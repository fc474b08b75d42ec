import Mathlib.Data.List.Basic

set_option autoImplicit false

/- Loops which can fail, and what holds at each turn of one. -/
namespace Fold

variable {σ τ α : Type*}

/-- Each turn of the loop meets a condition, in the state before it. -/
def Each (P : σ → α → Prop) (f : σ → α → Option σ) : σ → List α → Prop
  | _, [] => True
  | s, a :: rest => P s a ∧ ∀ s', f s a = some s' → Each P f s' rest

variable {P : σ → α → Prop} {f : σ → α → Option σ} {Q : τ → α → Prop} {g : τ → α → τ}
  {R : σ → τ → Prop} {s : σ} {x : τ}

theorem each_cons_of_some {a : α} {rest : List α} {s' : σ} (turn : f s a = some s') :
    Each P f s (a :: rest) ↔ P s a ∧ Each P f s' rest := by
  refine and_congr_right fun _ => ⟨fun later => later s' turn, fun later s'' turn' => ?_⟩
  rw [turn, Option.some.injEq] at turn'
  exact turn' ▸ later

/-- What each turn keeps, the loop keeps. -/
theorem foldlM_keeps {I : σ → Prop} (step : ∀ s a s', I s → f s a = some s' → I s')
    {items : List α} {s' : σ} (holds : I s) (ran : items.foldlM f s = some s') : I s' := by
  induction items generalizing s with
  | nil =>
      cases ran
      exact holds
  | cons a rest ih =>
      rw [List.foldlM_cons] at ran
      obtain ⟨s₁, first, ran⟩ := Option.bind_eq_some_iff.mp ran
      exact ih (step s a s₁ holds first) ran

/-- A loop whose turns go through and keep something goes through and keeps it. -/
theorem foldlM_total {I : σ → Prop} {items : List α}
    (turn : ∀ s a, a ∈ items → I s → ∃ s', f s a = some s' ∧ I s') (holds : I s) :
    ∃ s', items.foldlM f s = some s' ∧ I s' := by
  induction items generalizing s with
  | nil => exact ⟨s, rfl, holds⟩
  | cons a rest ih =>
      obtain ⟨s₁, taken, holds₁⟩ := turn s a List.mem_cons_self holds
      obtain ⟨s', ran, kept⟩ :=
        ih (fun s b member => turn s b (List.mem_cons_of_mem a member)) holds₁
      refine ⟨s', ?_, kept⟩
      rw [List.foldlM_cons, taken]
      exact ran

theorem each_append {first second : List α} :
    Each P f s (first ++ second) ↔
      Each P f s first ∧ ∀ s', first.foldlM f s = some s' → Each P f s' second := by
  induction first generalizing s with
  | nil =>
      refine ⟨fun each => ⟨trivial, ?_⟩, fun each => each.2 s rfl⟩
      rintro s' ⟨⟩
      exact each
  | cons a rest ih =>
      cases turn : f s a with
      | none => simp [Each, turn]
      | some s' =>
          rw [List.cons_append, each_cons_of_some turn, each_cons_of_some turn, ih, and_assoc,
            List.foldlM_cons, turn]
          rfl

theorem each_map {β : Type*} {h : β → α} {items : List β} :
    Each P f s (items.map h) ↔ Each (fun s b => P s (h b)) (fun s b => f s (h b)) s items := by
  induction items generalizing s with
  | nil => rfl
  | cons b rest ih => exact and_congr_right fun _ => forall₂_congr fun s' _ => ih

/-- A loop inside a loop, whose turns do not fail. -/
theorem each_flatMap {β : Type*} {h : β → List α} {items : List β} :
    Each Q (fun x a => some (g x a)) x (items.flatMap h) ↔
      Each (fun x b => Each Q (fun x a => some (g x a)) x (h b))
        (fun x b => some ((h b).foldl g x)) x items := by
  induction items generalizing x with
  | nil => exact iff_of_true trivial trivial
  | cons b rest ih =>
      have ran : (h b).foldlM (fun x a => some (g x a)) x = some ((h b).foldl g x) :=
        List.foldlM_pure
      rw [List.flatMap_cons, each_append, each_cons_of_some rfl, ← ih, ran]
      simp

/-- A loop which does what another one does, whose turns do not fail: what each turn needs
there makes this one go through, with the condition met at each turn. -/
theorem run_of_each {items : List α}
    (turn : ∀ s x a, a ∈ items → R s x → Q x a → P s a ∧ ∃ s', f s a = some s' ∧ R s' (g x a))
    (related : R s x) (each : Each Q (fun x a => some (g x a)) x items) :
    Each P f s items ∧ ∃ s', items.foldlM f s = some s' ∧ R s' (items.foldl g x) := by
  induction items generalizing s x with
  | nil => exact ⟨trivial, s, rfl, related⟩
  | cons a rest ih =>
      obtain ⟨met, s', taken, related'⟩ := turn s x a List.mem_cons_self related each.1
      obtain ⟨later, last, ran, final⟩ :=
        ih (fun s x b member => turn s x b (List.mem_cons_of_mem a member)) related'
          (each.2 _ rfl)
      refine ⟨(each_cons_of_some taken).mpr ⟨met, later⟩, last, ?_, final⟩
      rw [List.foldlM_cons, taken]
      exact ran

/-- When the condition is met only where the other loop has what it needs, both are the same. -/
theorem each_iff_run {items : List α}
    (turn : ∀ s x a, a ∈ items → R s x → Q x a → P s a ∧ ∃ s', f s a = some s' ∧ R s' (g x a))
    (back : ∀ s x a s', a ∈ items → R s x → P s a → f s a = some s' → Q x a) (related : R s x) :
    Each Q (fun x a => some (g x a)) x items ↔
      Each P f s items ∧ ∃ s', items.foldlM f s = some s' := by
  constructor
  · intro each
    obtain ⟨met, s', ran, -⟩ := run_of_each turn related each
    exact ⟨met, s', ran⟩
  · rintro ⟨met, last, ran⟩
    induction items generalizing s x with
    | nil => trivial
    | cons a rest ih =>
        cases taken : f s a with
        | none =>
            rw [List.foldlM_cons, taken] at ran
            cases ran
        | some s' =>
            rw [List.foldlM_cons, taken] at ran
            rw [each_cons_of_some taken] at met
            have needed := back s x a s' List.mem_cons_self related met.1 taken
            obtain ⟨-, s'', taken', related'⟩ := turn s x a List.mem_cons_self related needed
            rw [taken, Option.some.injEq] at taken'
            subst taken'
            refine ⟨needed, ?_⟩
            rintro x' ⟨⟩
            refine ih (fun s x b member => ?_) (fun s x b s' member => ?_) related' met.2 ran
            · exact turn s x b (List.mem_cons_of_mem a member)
            · exact back s x b s' (List.mem_cons_of_mem a member)

end Fold
