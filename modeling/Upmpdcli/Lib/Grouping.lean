import Upmpdcli.Lib.Dict

set_option autoImplicit false

/- The elements of a list, told apart by a key. -/
namespace Grouping

variable {α κ ν : Type*} [DecidableEq κ] (key : α → κ)

/-- The elements with this key. -/
def group (l : List α) (k : κ) : List α := l.filter fun a => key a = k

variable {key}

theorem mem_group {l : List α} {k : κ} {a : α} : a ∈ group key l k ↔ a ∈ l ∧ key a = k := by
  simp [group]

/-- A list is made of the groups of all its keys. -/
theorem flatMap_group_perm {keys : List κ} (distinct : keys.Nodup) {l : List α}
    (covered : ∀ a ∈ l, key a ∈ keys) : (keys.flatMap (group key l)).Perm l := by
  induction keys generalizing l with
  | nil =>
      cases l with
      | nil => exact .nil
      | cons a rest => exact absurd (covered a List.mem_cons_self) List.not_mem_nil
  | cons k rest ih =>
      obtain ⟨fresh, distinct⟩ := List.nodup_cons.mp distinct
      have others : ∀ a ∈ l.filter (fun a => ¬ key a = k), key a ∈ rest := by
        intro a member
        rw [List.mem_filter, decide_eq_true_eq] at member
        exact (List.mem_cons.mp (covered a member.1)).resolve_left member.2
      have same : ∀ other ∈ rest, group key (l.filter fun a => ¬ key a = k) other =
          group key l other := by
        intro other member
        unfold group
        rw [List.filter_filter]
        apply List.filter_congr
        intro a _
        by_cases here : key a = other
        · have apart : other ≠ k := fun equal => fresh (equal ▸ member)
          simp [here, apart]
        · simp [here]
      rw [List.flatMap_cons, ← List.flatMap_congr same]
      refine ((ih distinct others).append_left _).trans ?_
      have split := List.filter_append_perm (fun a => decide (key a = k)) l
      simpa only [group, decide_not] using split

/-- In an ordered list any two elements are in order, the one way or the other. -/
theorem related_of_pairwise {R : α → α → Prop} {l : List α} (ordered : l.Pairwise R)
    (refl : ∀ a, R a a) {a b : α} (first : a ∈ l) (second : b ∈ l) : R a b ∨ R b a := by
  have either : l.Pairwise fun a b => R a b ∨ R b a := ordered.imp fun related => .inl related
  have flipped : l.Pairwise (flip fun a b => R a b ∨ R b a) := either.imp Or.symm
  exact either.forall_of_forall_of_flip (fun a _ => .inl (refl a)) flipped first second

/-- A dictionary with an entry for each key of a list. -/
theorem keys_foldl_set (value : List (κ × ν) → α → ν) (l : List α) (dict : List (κ × ν))
    (distinct : (dict.map Prod.fst).Nodup) :
    let filled := l.foldl (fun dict a => Dict.set dict (key a) (value dict a)) dict
    (filled.map Prod.fst).Nodup ∧
      ∀ k, k ∈ filled.map Prod.fst ↔ k ∈ dict.map Prod.fst ∨ ∃ a ∈ l, key a = k := by
  induction l generalizing dict with
  | nil => simp [distinct]
  | cons a rest ih =>
      obtain ⟨kept, keys⟩ := ih (Dict.set dict (key a) (value dict a))
        (Dict.nodup_set distinct (key a) _)
      refine ⟨kept, fun k => (keys k).trans ?_⟩
      rw [Dict.keys_set]
      split
      · rename_i there
        simp only [List.exists_mem_cons_iff]
        constructor
        · rintro (old | later)
          · exact .inl old
          · exact .inr (.inr later)
        · rintro (old | rfl | later)
          · exact .inl old
          · exact .inl there
          · exact .inr later
      · simp only [List.mem_append, List.mem_singleton, List.exists_mem_cons_iff, or_assoc,
          eq_comm]

end Grouping
