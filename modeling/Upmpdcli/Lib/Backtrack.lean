import Mathlib.Data.List.Basic

set_option autoImplicit false

/- Matching with backtracking, as regular expressions do it. -/
namespace Backtrack

variable {α β : Type*}

/-- A group which takes as few elements as it can: `taken` is what it has taken, `stop` are the
elements it cannot take, and `rest` matches what is behind it. -/
def lazily (stop : α → Bool) (rest : List α → Option β) :
    (taken : List α) → List α → Option (List α × β)
  | taken, [] => (rest []).map fun found => (taken, found)
  | taken, c :: text =>
      match rest (c :: text) with
      | some found => some (taken, found)
      | none => if stop c then none else lazily stop rest (taken ++ [c]) text

variable {stop : α → Bool} {rest : List α → Option β}

/-- The group ends where the rest matches for the first time. -/
theorem lazily_append {taken more behind : List α} {found : β}
    (early : ∀ c ∈ more, stop c = false ∧ ∀ text, rest (c :: text) = none)
    (matched : rest behind = some found) :
    lazily stop rest taken (more ++ behind) = some (taken ++ more, found) := by
  induction more generalizing taken with
  | nil =>
      rw [List.nil_append, List.append_nil]
      cases behind with
      | nil => rw [lazily, matched, Option.map_some]
      | cons c text => simp only [lazily, matched]
  | cons c more ih =>
      rw [List.forall_mem_cons] at early
      obtain ⟨⟨free, none_here⟩, early⟩ := early
      have step : lazily stop rest taken (c :: more ++ behind) =
          lazily stop rest (taken ++ [c]) (more ++ behind) := by
        simp only [List.cons_append, lazily, none_here, free, Bool.false_eq_true, if_false]
      rw [step, ih early, List.append_assoc]
      rfl

/-- What a group takes has none of the elements it cannot take. -/
theorem lazily_eq_some {taken text : List α} {all : List α} {found : β}
    (matched : lazily stop rest taken text = some (all, found)) :
    ∃ more behind, text = more ++ behind ∧ all = taken ++ more ∧
      (∀ c ∈ more, stop c = false) ∧ rest behind = some found := by
  induction text generalizing taken with
  | nil =>
      obtain ⟨found', ended, same⟩ := Option.map_eq_some_iff.mp matched
      cases same
      refine ⟨[], [], rfl, (List.append_nil _).symm, ?_, ended⟩
      exact fun _ member => absurd member List.not_mem_nil
  | cons c text ih =>
      rw [lazily] at matched
      cases ended : rest (c :: text) with
      | some found' =>
          rw [ended] at matched
          cases matched
          refine ⟨[], c :: text, rfl, (List.append_nil _).symm, ?_, ended⟩
          exact fun _ member => absurd member List.not_mem_nil
      | none =>
          rw [ended] at matched
          dsimp only at matched
          cases free : stop c with
          | true => simp [free] at matched
          | false =>
              rw [free, if_neg Bool.false_ne_true] at matched
              obtain ⟨more, behind, rfl, rfl, others, later⟩ := ih matched
              refine ⟨c :: more, behind, rfl, by simp, ?_, later⟩
              rw [List.forall_mem_cons]
              exact ⟨free, others⟩

/-- Parts with a separator before each of them. -/
def joined (sep : α) (parts : List (List α)) : List α := parts.flatMap fun part => sep :: part

variable {sep : α}

@[simp] theorem joined_cons (part : List α) (parts : List (List α)) :
    joined sep (part :: parts) = sep :: part ++ joined sep parts := rfl

/-- What is behind a part begins with the separator. -/
theorem head_joined (parts : List (List α)) : ∀ c ∈ (joined sep parts).head?, c = sep := by
  cases parts with
  | nil => exact fun _ member => by cases member
  | cons part parts =>
      intro c member
      cases member
      rfl

/-- Where a part without the separator ends can be told from the text. -/
theorem append_inj_of_begins {part other behind behind' : List α} (free : sep ∉ part)
    (free' : sep ∉ other) (begins : ∀ c ∈ behind.head?, c = sep)
    (begins' : ∀ c ∈ behind'.head?, c = sep) (same : part ++ behind = other ++ behind') :
    part = other ∧ behind = behind' := by
  -- the longer part would have a separator where the shorter one ends
  obtain ⟨more, whole, later⟩ | ⟨more, whole, later⟩ := List.append_eq_append_iff.mp same
  · cases more with
    | nil => exact ⟨by rw [whole, List.append_nil], later⟩
    | cons c more =>
        have first : c = sep := begins c (by rw [later]; rfl)
        exact absurd (by rw [whole, first]; simp) free'
  · cases more with
    | nil => exact ⟨by rw [whole, List.append_nil], later.symm⟩
    | cons c more =>
        have first : c = sep := begins' c (by rw [later]; rfl)
        exact absurd (by rw [whole, first]; simp) free

end Backtrack
