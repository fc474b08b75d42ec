import Mathlib.Data.List.Basic

set_option autoImplicit false

/- Lists which are read through a function that can fail. -/
namespace MapM

variable {α β : Type*} {f : α → Option β}

theorem cons_eq_some {a : α} {rest : List α} {found : List β} :
    (a :: rest).mapM f = some found ↔
      ∃ b behind, f a = some b ∧ rest.mapM f = some behind ∧ found = b :: behind := by
  simp only [List.mapM_cons, bind, Option.bind_eq_some_iff]
  constructor
  · rintro ⟨b, first, behind, later, same⟩
    cases same
    exact ⟨b, behind, first, later, rfl⟩
  · rintro ⟨b, behind, first, later, rfl⟩
    exact ⟨b, first, behind, later, rfl⟩

/-- What is found at a place comes from this place. -/
theorem getElem?_of_eq_some {items : List α} {found : List β} (all : items.mapM f = some found)
    {i : Nat} {b : β} (there : found[i]? = some b) : ∃ a, items[i]? = some a ∧ f a = some b := by
  induction items generalizing found i with
  | nil =>
      cases all
      cases there
  | cons a rest ih =>
      obtain ⟨b', behind, first, later, rfl⟩ := cons_eq_some.mp all
      cases i with
      | zero =>
          cases there
          exact ⟨a, rfl, first⟩
      | succ i => exact ih later there

theorem mem_of_eq_some {items : List α} {found : List β} (all : items.mapM f = some found)
    {b : β} (member : b ∈ found) : ∃ a ∈ items, f a = some b := by
  obtain ⟨i, inside, rfl⟩ := List.getElem_of_mem member
  obtain ⟨a, at_i, of_a⟩ := getElem?_of_eq_some all (List.getElem?_eq_getElem inside)
  exact ⟨a, List.mem_of_getElem? at_i, of_a⟩

theorem mem_of_mem {items : List α} {found : List β} (all : items.mapM f = some found) {a : α}
    (member : a ∈ items) : ∃ b ∈ found, f a = some b := by
  induction items generalizing found with
  | nil => cases member
  | cons first rest ih =>
      obtain ⟨b, behind, of_first, later, rfl⟩ := cons_eq_some.mp all
      rcases List.mem_cons.mp member with rfl | inside
      · exact ⟨b, List.mem_cons_self, of_first⟩
      · obtain ⟨b', found_there, of_a⟩ := ih later inside
        exact ⟨b', List.mem_cons_of_mem b found_there, of_a⟩

theorem map_of_eq_some {γ : Type*} {g : β → γ} {h : α → γ} {items : List α} {found : List β}
    (all : items.mapM f = some found) (each : ∀ a ∈ items, ∀ b, f a = some b → g b = h a) :
    found.map g = items.map h := by
  induction items generalizing found with
  | nil =>
      cases all
      rfl
  | cons a rest ih =>
      obtain ⟨b, behind, first, later, rfl⟩ := cons_eq_some.mp all
      rw [List.map_cons, List.map_cons, each a List.mem_cons_self b first,
        ih later fun other inside => each other (List.mem_cons_of_mem a inside)]

/-- The results stand where their elements stand. -/
theorem forall₂_of_eq_some {items : List α} {found : List β} (all : items.mapM f = some found) :
    List.Forall₂ (fun a b => f a = some b) items found := by
  induction items generalizing found with
  | nil =>
      cases all
      exact .nil
  | cons a rest ih =>
      obtain ⟨b, behind, first, others, rfl⟩ := cons_eq_some.mp all
      exact .cons first (ih others)

theorem length_of_eq_some {items : List α} {found : List β} (all : items.mapM f = some found) :
    found.length = items.length := by
  induction items generalizing found with
  | nil =>
      cases all
      rfl
  | cons a rest ih =>
      obtain ⟨b, behind, -, later, rfl⟩ := cons_eq_some.mp all
      rw [List.length_cons, List.length_cons, ih later]

theorem drop_of_eq_some {items : List α} {found : List β} (all : items.mapM f = some found)
    (n : Nat) : (items.drop n).mapM f = some (found.drop n) := by
  induction items generalizing found n with
  | nil =>
      cases all
      cases n with
      | zero => rfl
      | succ n => rfl
  | cons a rest ih =>
      obtain ⟨b, behind, first, later, rfl⟩ := cons_eq_some.mp all
      cases n with
      | zero => exact all
      | succ n => exact ih later n

theorem take_of_eq_some {items : List α} {found : List β} (all : items.mapM f = some found)
    (n : Nat) : (items.take n).mapM f = some (found.take n) := by
  induction items generalizing found n with
  | nil =>
      cases all
      cases n with
      | zero => rfl
      | succ n => rfl
  | cons a rest ih =>
      obtain ⟨b, behind, first, later, rfl⟩ := cons_eq_some.mp all
      cases n with
      | zero => rfl
      | succ n => exact cons_eq_some.mpr ⟨b, behind.take n, first, ih later n, rfl⟩

/-- What stands across from an element. -/
theorem exists_across {R : α → β → Prop} {items : List α} {found : List β}
    (related : List.Forall₂ R items found) {a : α} (member : a ∈ items) : ∃ b ∈ found, R a b := by
  induction related with
  | nil => cases member
  | cons first _ ih =>
      rcases List.mem_cons.mp member with rfl | later
      · exact ⟨_, List.mem_cons_self, first⟩
      · obtain ⟨b, of_found, there⟩ := ih later
        exact ⟨b, List.mem_cons_of_mem _ of_found, there⟩

theorem eq_none_iff {items : List α} : items.mapM f = none ↔ ∃ a ∈ items, f a = none := by
  induction items with
  | nil => simp
  | cons a rest ih =>
      cases first : f a with
      | none => simp [List.mapM_cons, first]
      | some b =>
          cases later : rest.mapM f with
          | none =>
              simpa [List.mapM_cons, first, later] using ih.mp later
          | some behind =>
              have all := mt ih.mpr (by rw [later]; exact Option.some_ne_none behind)
              simpa [List.mapM_cons, first, later] using all

theorem exists_eq_some (items : List α) (each : ∀ a ∈ items, f a ≠ none) :
    ∃ found, items.mapM f = some found := by
  apply Option.ne_none_iff_exists'.mp
  intro failed
  obtain ⟨a, member, none_of⟩ := eq_none_iff.mp failed
  exact each a member none_of

theorem filterMap_of_eq_some {items : List α} {found : List β} (all : items.mapM f = some found) :
    items.filterMap f = found := by
  induction items generalizing found with
  | nil =>
      cases all
      rfl
  | cons a rest ih =>
      obtain ⟨b, behind, first, later, rfl⟩ := cons_eq_some.mp all
      rw [List.filterMap_cons_some first, ih later]

/-- What is read from a list in another order is what was read, in another order. -/
theorem exists_perm_of_perm {items items' : List α} {found : List β} (perm : items.Perm items')
    (all : items.mapM f = some found) :
    ∃ found', items'.mapM f = some found' ∧ found.Perm found' := by
  induction perm generalizing found with
  | nil => exact ⟨found, all, .refl found⟩
  | cons a _ ih =>
      obtain ⟨b, behind, first, later, rfl⟩ := cons_eq_some.mp all
      obtain ⟨behind', later', same⟩ := ih later
      exact ⟨b :: behind', cons_eq_some.mpr ⟨b, behind', first, later', rfl⟩, same.cons b⟩
  | swap a a' rest =>
      obtain ⟨b', _, first', others, rfl⟩ := cons_eq_some.mp all
      obtain ⟨b, behind, first, later, rfl⟩ := cons_eq_some.mp others
      have swapped := cons_eq_some.mpr ⟨b', behind, first', later, rfl⟩
      exact ⟨_, cons_eq_some.mpr ⟨b, _, first, swapped, rfl⟩, .swap b b' behind⟩
  | trans _ _ ih ih' =>
      obtain ⟨between, read, perm⟩ := ih all
      obtain ⟨last, read', perm'⟩ := ih' read
      exact ⟨last, read', perm.trans perm'⟩

end MapM
