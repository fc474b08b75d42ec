import Mathlib.Data.List.Basic
import Mathlib.Data.List.TakeWhile

set_option autoImplicit false

/- Cutting an input at the first separator: a line at its end, a field at the sign behind
its name. -/
namespace Lines

variable {α : Type*} [DecidableEq α]

/-- What stands before the first separator, and what stands behind it if there is one. -/
def cut (sep : α) (input : List α) : List α × Option (List α) :=
  let before := input.takeWhile (· ≠ sep)
  match input.drop before.length with
  | [] => (before, none)
  | _ :: rest => (before, some rest)

theorem takeWhile_of_not_mem {sep : α} {line : List α} (absent : sep ∉ line) (rest : List α) :
    (line ++ sep :: rest).takeWhile (· ≠ sep) = line := by
  induction line with
  | nil => simp
  | cons first line ih =>
      rw [List.mem_cons, not_or] at absent
      rw [List.cons_append, List.takeWhile_cons_of_pos (by simpa using Ne.symm absent.1),
        ih absent.2]

/-- A line is read back with what follows its end. -/
theorem cut_append {sep : α} {line : List α} (absent : sep ∉ line) (rest : List α) :
    cut sep (line ++ sep :: rest) = (line, some rest) := by
  unfold cut
  simp only [takeWhile_of_not_mem absent rest, List.drop_left]

/-- An input without a separator is one line. -/
theorem cut_of_not_mem {sep : α} {input : List α} (absent : sep ∉ input) :
    cut sep input = (input, none) := by
  have whole : input.takeWhile (· ≠ sep) = input := by
    rw [List.takeWhile_eq_self_iff]
    intro item member
    exact decide_eq_true fun same => absent (same ▸ member)
  unfold cut
  simp only [whole, List.drop_length]

theorem cut_cases (sep : α) (input : List α) :
    (∃ line rest, sep ∉ line ∧ input = line ++ sep :: rest ∧ cut sep input = (line, some rest)) ∨
      sep ∉ input ∧ cut sep input = (input, none) := by
  by_cases member : sep ∈ input
  · obtain ⟨line, rest, whole, absent⟩ := List.eq_append_cons_of_mem member
    exact .inl ⟨line, rest, absent, whole, whole ▸ cut_append absent rest⟩
  · exact .inr ⟨member, cut_of_not_mem member⟩

theorem not_mem_of_cut {sep : α} {input line : List α} {rest : Option (List α)}
    (found : cut sep input = (line, rest)) : sep ∉ line := by
  rcases cut_cases sep input with ⟨_, _, absent, _, same⟩ | ⟨absent, same⟩
  · cases found.symm.trans same
    exact absent
  · cases found.symm.trans same
    exact absent

theorem eq_of_cut {sep : α} {input line rest : List α}
    (found : cut sep input = (line, some rest)) : input = line ++ sep :: rest := by
  rcases cut_cases sep input with ⟨_, _, _, whole, same⟩ | ⟨_, same⟩
  · cases found.symm.trans same
    exact whole
  · cases found.symm.trans same

theorem eq_of_cut_none {sep : α} {input line : List α}
    (found : cut sep input = (line, none)) : line = input := by
  rcases cut_cases sep input with ⟨_, _, _, _, same⟩ | ⟨_, same⟩
  · cases found.symm.trans same
  · cases found.symm.trans same
    rfl

/-- What is behind the separator is shorter than the input. -/
theorem length_cut {sep : α} {input line rest : List α}
    (found : cut sep input = (line, some rest)) : rest.length < input.length := by
  rw [eq_of_cut found, List.length_append, List.length_cons]
  omega

section Fields

variable {β : Type*} {sep : β → Bool}

def fieldsFrom (sep : β → Bool) : List β → List β → List (List β)
  | [], current => if current.isEmpty then [] else [current]
  | c :: rest, current =>
      if sep c then
        if current.isEmpty then fieldsFrom sep rest [] else current :: fieldsFrom sep rest []
      else fieldsFrom sep rest (current ++ [c])

/-- What stands between separators, however many of them there are. -/
def fields (sep : β → Bool) (input : List β) : List (List β) := fieldsFrom sep input []

theorem fieldsFrom_append {word : List β} (inside : ∀ c ∈ word, sep c = false)
    (rest current : List β) :
    fieldsFrom sep (word ++ rest) current = fieldsFrom sep rest (current ++ word) := by
  induction word generalizing current with
  | nil => simp
  | cons c word ih =>
      rw [List.forall_mem_cons] at inside
      rw [List.cons_append, fieldsFrom, inside.1, if_neg Bool.false_ne_true, ih inside.2]
      simp

/-- Two fields are found again. -/
theorem fields_pair {first second : List β} (some_first : first ≠ []) (some_second : second ≠ [])
    (in_first : ∀ c ∈ first, sep c = false) (in_second : ∀ c ∈ second, sep c = false) {c : β}
    (between : sep c = true) : fields sep (first ++ c :: second) = [first, second] := by
  have whole := fieldsFrom_append in_second [] []
  unfold fields
  rw [fieldsFrom_append in_first, fieldsFrom, if_pos between]
  rw [List.append_nil, List.nil_append] at whole
  simp [whole, fieldsFrom, some_first, some_second]

end Fields

end Lines
