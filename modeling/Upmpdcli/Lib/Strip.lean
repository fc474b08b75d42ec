import Mathlib.Data.List.DropRight

set_option autoImplicit false

/- Taking off what satisfies a test at both ends of a list. -/
namespace Strip

variable {α : Type*} {p : α → Bool} {items : List α}

def strip (p : α → Bool) (items : List α) : List α := (items.rdropWhile p).dropWhile p

/-- There is nothing to take off. -/
structure Stripped (p : α → Bool) (items : List α) : Prop where
  first : ∀ item, items.head? = some item → p item = false
  last : ∀ item, items.getLast? = some item → p item = false

theorem stripped_nil : Stripped p ([] : List α) where
  first _ found := by cases found
  last _ found := by cases found

theorem rdropWhile_of_last (last : ∀ item, items.getLast? = some item → p item = false) :
    items.rdropWhile p = items := by
  rw [List.rdropWhile_eq_self_iff]
  intro filled
  rw [last _ (List.getLast?_eq_some_getLast filled)]
  exact Bool.false_ne_true

theorem dropWhile_of_first (first : ∀ item, items.head? = some item → p item = false) :
    items.dropWhile p = items := by
  cases items with
  | nil => rfl
  | cons item rest => exact List.dropWhile_cons_of_neg (by simp [first item rfl])

theorem strip_of_stripped (stripped : Stripped p items) : strip p items = items := by
  unfold strip
  rw [rdropWhile_of_last stripped.last, dropWhile_of_first stripped.first]

theorem last_rdropWhile {item : α} (found : (items.rdropWhile p).getLast? = some item) :
    p item = false := by
  have filled : items.rdropWhile p ≠ [] := fun empty => by simp [empty] at found
  have stopped := List.rdropWhile_last_not p items filled
  rw [List.getLast?_eq_some_getLast filled, Option.some.injEq] at found
  rwa [found, Bool.not_eq_true] at stopped

theorem head_dropWhile {item : α} (found : (items.dropWhile p).head? = some item) :
    p item = false := by
  have stopped := List.head?_dropWhile_not p items
  rwa [found] at stopped

theorem strip_stripped (p : α → Bool) (items : List α) : Stripped p (strip p items) where
  first _ found := head_dropWhile found
  last item found := by
    have filled : strip p items ≠ [] := fun empty => by simp [empty] at found
    obtain ⟨gone, whole⟩ : strip p items <:+ items.rdropWhile p := List.dropWhile_suffix p
    have ends := List.getLast?_append_of_ne_nil gone filled
    rw [whole, found] at ends
    exact last_rdropWhile ends

theorem strip_sublist (p : α → Bool) (items : List α) : List.Sublist (strip p items) items :=
  (List.dropWhile_suffix p).sublist.trans (List.rdropWhile_prefix p items).sublist

/-- What starts well only loses something at its end. -/
theorem strip_of_first (first : ∀ item, items.head? = some item → p item = false) :
    strip p items = items.rdropWhile p := by
  unfold strip
  apply dropWhile_of_first
  intro item found
  apply first
  obtain ⟨gone, whole⟩ := List.rdropWhile_prefix p items
  cases kept : items.rdropWhile p with
  | nil => rw [kept] at found; cases found
  | cons head rest =>
      rw [kept] at found whole
      rw [← whole]
      exact found

theorem head_rdropWhile (filled : items.rdropWhile p ≠ []) :
    (items.rdropWhile p).head? = items.head? := by
  obtain ⟨gone, whole⟩ := List.rdropWhile_prefix p items
  have same : (items.rdropWhile p ++ gone).head? = _ := List.head?_append_of_ne_nil _ filled
  rw [whole] at same
  exact same.symm

theorem eq_nil_of_strip (first : ∀ item, items.head? = some item → p item = false)
    (empty : strip p items = []) : items = [] := by
  rw [strip_of_first first, List.rdropWhile_eq_nil_iff] at empty
  cases items with
  | nil => rfl
  | cons item rest =>
      have kept := first item rfl
      rw [empty item List.mem_cons_self] at kept
      cases kept

/-- What is left of a list which starts well starts in the same way. -/
theorem head_strip (first : ∀ item, items.head? = some item → p item = false)
    (filled : strip p items ≠ []) : (strip p items).head? = items.head? := by
  rw [strip_of_first first] at filled ⊢
  exact head_rdropWhile filled

theorem last_strip (last : ∀ item, items.getLast? = some item → p item = false)
    (filled : strip p items ≠ []) : (strip p items).getLast? = items.getLast? := by
  unfold strip at filled ⊢
  rw [rdropWhile_of_last last] at filled ⊢
  obtain ⟨gone, whole⟩ : items.dropWhile p <:+ items := List.dropWhile_suffix p
  have same := List.getLast?_append_of_ne_nil gone filled
  rw [whole] at same
  exact same.symm

theorem strip_concat {item : α} (gone : p item = true) (items : List α) :
    strip p (items ++ [item]) = strip p items := by
  unfold strip
  rw [List.rdropWhile_concat_pos _ _ _ gone]

/-- What is not taken off at the beginning stays there. -/
theorem strip_cons_of_kept {item : α} (kept : p item = false) (items : List α) :
    ∃ rest, strip p (item :: items) = item :: rest := by
  have first : ∀ other, (item :: items).head? = some other → p other = false := by
    intro other found
    cases found
    exact kept
  have filled : strip p (item :: items) ≠ [] := by
    rw [strip_of_first first]
    intro empty
    have dropped := List.rdropWhile_eq_nil_iff.mp empty item List.mem_cons_self
    rw [kept] at dropped
    cases dropped
  exact List.head?_eq_some_iff.mp (head_strip first filled)

theorem strip_cons {item : α} (gone : p item = true) (items : List α) :
    strip p (item :: items) = strip p items := by
  unfold strip List.rdropWhile
  rw [List.reverse_cons, List.dropWhile_append]
  split
  · rename_i all
    rw [List.isEmpty_iff] at all
    simp [all, gone]
  · rw [List.reverse_append, List.reverse_singleton, List.singleton_append,
      List.dropWhile_cons_of_pos gone]

theorem strip_append_right {behind : List α} (gone : ∀ item ∈ behind, p item = true)
    (items : List α) : strip p (items ++ behind) = strip p items := by
  induction behind generalizing items with
  | nil => rw [List.append_nil]
  | cons item rest ih =>
      rw [List.forall_mem_cons] at gone
      rw [List.append_cons, ih gone.2, strip_concat gone.1]

theorem strip_append_left {before : List α} (gone : ∀ item ∈ before, p item = true)
    (items : List α) : strip p (before ++ items) = strip p items := by
  induction before with
  | nil => rw [List.nil_append]
  | cons item rest ih =>
      rw [List.forall_mem_cons] at gone
      rw [List.cons_append, strip_cons gone.1, ih gone.2]

/-- What is taken off stands before and behind what is left. -/
theorem strip_split (p : α → Bool) (items : List α) :
    ∃ before behind, items = before ++ strip p items ++ behind ∧
      (∀ item ∈ before, p item = true) ∧ ∀ item ∈ behind, p item = true := by
  refine ⟨(items.rdropWhile p).takeWhile p, items.rtakeWhile p, ?_, fun _ => List.mem_takeWhile_imp,
    fun _ => List.mem_rtakeWhile_imp⟩
  unfold strip
  rw [List.takeWhile_append_dropWhile, List.rdropWhile_append_rtakeWhile]

/-- Taking off less first makes no difference. -/
theorem strip_strip {q : α → Bool} (less : ∀ item, q item = true → p item = true)
    (items : List α) : strip p (strip q items) = strip p items := by
  obtain ⟨before, behind, whole, first, last⟩ := strip_split q items
  have same := strip_append_right (p := p) (fun item member => less item (last item member))
    (before ++ strip q items)
  rw [← whole, strip_append_left fun item member => less item (first item member)] at same
  exact same.symm

theorem dropWhile_dropWhile {q : α → Bool} (less : ∀ item, q item = true → p item = true)
    (items : List α) : (items.dropWhile q).dropWhile p = items.dropWhile p := by
  induction items with
  | nil => rfl
  | cons item rest ih =>
      by_cases gone : q item = true
      · rw [List.dropWhile_cons_of_pos gone, List.dropWhile_cons_of_pos (less item gone), ih]
      · rw [List.dropWhile_cons_of_neg gone]

theorem rdropWhile_rdropWhile {q : α → Bool} (less : ∀ item, q item = true → p item = true)
    (items : List α) : (items.rdropWhile q).rdropWhile p = items.rdropWhile p := by
  rw [List.rdropWhile, List.rdropWhile, List.rdropWhile, List.reverse_reverse,
    dropWhile_dropWhile less]

end Strip
