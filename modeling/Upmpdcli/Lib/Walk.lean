import Mathlib.Data.List.Basic

set_option autoImplicit false

/- Pages each of which may say which page is the next one. -/
namespace Walk

variable {ι π α : Type*} (serve : ι → Option π) (next : π → Option ι)

/-- The pages from one on, to the first which says no next one. -/
inductive Follows : ι → List π → Prop
  | last {i : ι} {page : π} (served : serve i = some page) (ends : next page = none) :
      Follows i [page]
  | more {i j : ι} {page : π} {rest : List π} (served : serve i = some page)
      (leads : next page = some j) (later : Follows j rest) : Follows i (page :: rest)

variable {serve next}

theorem Follows.unique {i : ι} {first second : List π} (left : Follows serve next i first)
    (right : Follows serve next i second) : first = second := by
  induction left generalizing second with
  | last served ends =>
      cases right with
      | last served' _ =>
          obtain rfl := Option.some.inj (served.symm.trans served')
          rfl
      | more served' leads _ =>
          obtain rfl := Option.some.inj (served.symm.trans served')
          cases ends.symm.trans leads
  | more served leads _ ih =>
      cases right with
      | last served' ends =>
          obtain rfl := Option.some.inj (served.symm.trans served')
          cases leads.symm.trans ends
      | more served' leads' later =>
          obtain rfl := Option.some.inj (served.symm.trans served')
          obtain rfl := Option.some.inj (leads.symm.trans leads')
          rw [ih later]

section Slices

variable (serve next) {size : Nat} (start : Nat → ι) (pageAt : Nat → π) (elements : π → List α)

/-- The page at an offset has what is left, and ends, or as much as a page takes, and leads to
the page behind that. The offsets are those of whole pages. -/
structure Slices (whole : List α) (size : Nat) : Prop where
  served : ∀ offset ≤ whole.length, size ∣ offset → serve (start offset) = some (pageAt offset)
  each : ∀ offset ≤ whole.length, size ∣ offset →
    next (pageAt offset) = none ∧ whole.length ≤ offset + size ∧
      elements (pageAt offset) = whole.drop offset ∨
    next (pageAt offset) = some (start (offset + size)) ∧ offset + size ≤ whole.length ∧
      elements (pageAt offset) = (whole.drop offset).take size

variable {serve next start pageAt elements} {whole : List α}

/-- Such pages show the list. -/
theorem Slices.follows (slices : Slices serve next start pageAt elements whole size)
    (positive : 0 < size) (offset : Nat) (inside : offset ≤ whole.length)
    (aligned : size ∣ offset) :
    ∃ pages, Follows serve next (start offset) pages ∧ pages.flatMap elements = whole.drop offset ∧
      ∀ page ∈ pages, (elements page).length ≤ size := by
  obtain ⟨left, enough⟩ : ∃ left, whole.length ≤ offset + left := ⟨whole.length, by omega⟩
  -- by the number of elements which are left
  induction left using Nat.strongRecOn generalizing offset with
  | ind left ih =>
      have served := slices.served offset inside aligned
      rcases slices.each offset inside aligned with ⟨ends, short, shown⟩ | ⟨leads, fits, shown⟩
      · refine ⟨[pageAt offset], .last served ends, ?_, ?_⟩
        · rw [List.flatMap_singleton, shown]
        · intro page member
          rw [List.mem_singleton.mp member, shown, List.length_drop]
          omega
      · obtain ⟨rest, later, shown_later, each⟩ := ih (left - size) (by omega) (offset + size) fits
          (Nat.dvd_add aligned (Nat.dvd_refl size)) (by omega)
        refine ⟨pageAt offset :: rest, .more served leads later, ?_, ?_⟩
        · rw [List.flatMap_cons, shown, shown_later, ← List.drop_drop, List.take_append_drop]
        · intro page member
          rcases List.mem_cons.mp member with rfl | of_rest
          · rw [shown]
            exact List.length_take_le size _
          · exact each page of_rest

end Slices

end Walk
