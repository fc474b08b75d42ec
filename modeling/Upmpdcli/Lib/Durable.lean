import Mathlib.Data.List.Induction
import Upmpdcli.Lib.Machine

set_option autoImplicit false

/- Machines which keep a copy of what they hold on a medium. The copy may be late, but it is
one of what was held at some earlier time. -/
namespace Durable

open Machine

variable {σ α β μ : Type*}

/-- What one allowed action does: it is not refused, it changes what is held as `apply` says,
and the copy either stays as it was or is brought up to date. `synced` are the answers which
promise the latter. -/
structure WriteThrough (step : σ → α → Option (σ × β)) (inv : σ → Prop) (allowed : α → Prop)
    (held : σ → μ) (apply : μ → α → μ) (copied : σ → μ → Prop) (synced : σ → β → Prop) :
    Prop where
  total : ∀ s a, inv s → allowed a → ∃ t b, step s a = some (t, b)
  keeps : ∀ s a t b, inv s → allowed a → step s a = some (t, b) → inv t
  applied : ∀ s a t b, inv s → allowed a → step s a = some (t, b) → held t = apply (held s) a
  late : ∀ s a t b m, inv s → allowed a → step s a = some (t, b) → copied s m →
    copied t m ∨ copied t (held t)
  current : ∀ s a t b, inv s → allowed a → step s a = some (t, b) → synced t b →
    copied t (held t)

variable {step : σ → α → Option (σ × β)} {inv : σ → Prop} {allowed : α → Prop} {held : σ → μ}
  {apply : μ → α → μ} {copied : σ → μ → Prop} {synced : σ → β → Prop}

/-- A run ends in what all of its actions make, with a copy of what some first ones of them
make. -/
theorem WriteThrough.run (through : WriteThrough step inv allowed held apply copied synced)
    {actions : List α} (fine : ∀ a ∈ actions, allowed a) {s : σ} (start : inv s)
    (copy : copied s (held s)) :
    ∃ last outs, run step s actions = some (last, outs) ∧ inv last ∧
      held last = actions.foldl apply (held s) ∧
      (∃ first, first <+: actions ∧ copied last (first.foldl apply (held s))) ∧
      ((∃ out, outs.getLast? = some out ∧ synced last out) → copied last (held last)) := by
  induction actions using List.reverseRecOn with
  | nil =>
      refine ⟨s, [], rfl, start, rfl, ⟨[], List.nil_prefix, copy⟩, ?_⟩
      rintro ⟨out, none_yet, -⟩
      cases none_yet
  | append_singleton actions action ih =>
      rw [List.forall_mem_append] at fine
      obtain ⟨middle, outs, ran, kept, model, ⟨first, before, was_copied⟩, -⟩ := ih fine.1
      have here := fine.2 action (List.mem_singleton.mpr rfl)
      obtain ⟨last, out, taken⟩ := through.total middle action kept here
      have one : Machine.run step middle [action] = some (last, [out]) :=
        (run_cons_iff _ _ _ _ _).mpr ⟨last, out, [], taken, rfl, rfl⟩
      have after : held last = (actions ++ [action]).foldl apply (held s) := by
        rw [List.foldl_append, ← model]
        exact through.applied middle action last out kept here taken
      refine ⟨last, outs ++ [out], (run_append_iff _ _ _ _ _).mpr
        ⟨middle, outs, [out], ran, one, rfl⟩, through.keeps middle action last out kept here taken,
        after, ?_, ?_⟩
      · rcases through.late middle action last out _ kept here taken was_copied with old | new
        · exact ⟨first, before.trans (List.prefix_append _ _), old⟩
        · exact ⟨actions ++ [action], List.prefix_rfl, after ▸ new⟩
      · rintro ⟨out', ends, promised⟩
        rw [List.getLast?_concat] at ends
        cases ends
        exact through.current middle action last out kept here taken promised

end Durable
