import Mathlib.Data.List.Basic

set_option autoImplicit false

/- Pages of a list, and when a part of the list which is held somewhere is enough to
make a page of the whole. -/
namespace Paging

variable {α : Type*}

/-- `count` elements from `start`; a zero count asks for all the rest. -/
def page (l : List α) (start count : Nat) : List α :=
  if count = 0 then l.drop start else (l.drop start).take count

theorem page_of_length_le (l : List α) {start : Nat} (past : l.length ≤ start) (count : Nat) :
    page l start count = [] := by
  have none : l.drop start = [] := List.drop_eq_nil_of_le past
  simp only [page, none, List.take_nil, ite_self]

/-- Asking for more than there is asks for all the rest. -/
theorem page_of_rest_le (l : List α) {start count : Nat} (more : l.length ≤ start + count) :
    page l start count = l.drop start := by
  unfold page
  split
  · rfl
  · exact List.take_of_length_le (by rw [List.length_drop]; omega)

/-- Pages of one size which follow each other are the beginning of the list. -/
theorem flatMap_page (l : List α) {count : Nat} (limit : count ≠ 0) (pages : Nat) :
    (List.range pages).flatMap (fun i => page l (i * count) count) = l.take (pages * count) := by
  induction pages with
  | zero => simp
  | succ pages ih =>
      rw [List.range_succ, List.flatMap_append, ih, List.flatMap_singleton, Nat.succ_mul,
        List.take_add, page, if_neg limit]

/-- `part` starts at `offset` in `whole` and reaches the end of the page, the end of
`whole`, or the page is past the end of `whole`. -/
def Covers (whole part : List α) (offset start count : Nat) : Prop :=
  offset ≤ start ∧
    (whole.length ≤ offset + part.length ∨ whole.length ≤ start ∨
      (0 < count ∧ start + count ≤ offset + part.length))

theorem page_of_covers {whole part : List α} {offset start count : Nat}
    (slice : part <+: whole.drop offset) (covers : Covers whole part offset start count) :
    page part (start - offset) count = page whole start count := by
  obtain ⟨later, reaches⟩ := covers
  obtain ⟨rest, whole_eq⟩ := slice
  have split : whole.drop start = (part ++ rest).drop (start - offset) := by
    rw [whole_eq, List.drop_drop, Nat.add_sub_cancel' later]
  have size : whole.length - offset = part.length + rest.length := by
    rw [← List.length_append, whole_eq, List.length_drop]
  rcases reaches with end_ | past | ⟨positive, enough⟩
  · have none : rest = [] := List.length_eq_zero_iff.mp (by omega)
    rw [none, List.append_nil] at split
    simp only [page, split]
  · rw [page_of_length_le whole past, page_of_length_le part (by omega)]
  · have cut : ((part ++ rest).drop (start - offset)).take count =
        (part.drop (start - offset)).take count := by
      rw [List.drop_append_of_le_length (by omega),
        List.take_append_of_le_length (by rw [List.length_drop]; omega)]
    simp only [page, split, cut, show count ≠ 0 by omega, ↓reduceIte]

end Paging
