import Mathlib.Data.List.Induction
import Mathlib.Data.List.Nodup

set_option autoImplicit false

/- Maps of variables kept up to date by sending the entries which changed. A map is the
list of its entries, the first one for a key being the one which counts. -/
namespace VarMap

variable {κ ν : Type*} [DecidableEq κ]

/-- Two maps give every variable the same value. -/
def Same (left right : List (κ × ν)) : Prop := ∀ key, left.lookup key = right.lookup key

theorem Same.refl (entries : List (κ × ν)) : Same entries entries := fun _ => rfl

theorem Same.trans {first second third : List (κ × ν)} (left : Same first second)
    (right : Same second third) : Same first third := fun key => (left key).trans (right key)

/-- The map after an event. -/
def overlay (base event : List (κ × ν)) : List (κ × ν) := event ++ base

theorem lookup_overlay (base event : List (κ × ν)) (key : κ) :
    (overlay base event).lookup key = (event.lookup key).or (base.lookup key) := by
  unfold overlay
  induction event with
  | nil => rfl
  | cons entry rest ih =>
      obtain ⟨name, value⟩ := entry
      rw [List.cons_append, List.lookup_cons, List.lookup_cons, ih]
      cases key == name <;> rfl

theorem lookup_eq_none_of_not_mem {entries : List (κ × ν)} {key : κ}
    (absent : key ∉ entries.map Prod.fst) : entries.lookup key = none := by
  induction entries with
  | nil => rfl
  | cons entry rest ih =>
      obtain ⟨name, value⟩ := entry
      simp only [List.map_cons, List.mem_cons, not_or] at absent
      rw [List.lookup_cons, show (key == name) = false from beq_false_of_ne absent.1]
      exact ih absent.2

/-- The map without this key. -/
def erase (entries : List (κ × ν)) (gone : κ) : List (κ × ν) :=
  entries.filter fun entry => entry.1 ≠ gone

/-- The assignment of one key. -/
def set (entries : List (κ × ν)) (key : κ) (value : ν) : List (κ × ν) :=
  (key, value) :: erase entries key

theorem lookup_erase (entries : List (κ × ν)) (gone key : κ) :
    (erase entries gone).lookup key = if key = gone then none else entries.lookup key := by
  unfold erase
  induction entries with
  | nil => exact (ite_self none).symm
  | cons entry rest ih =>
      obtain ⟨name, value⟩ := entry
      rw [List.filter_cons]
      by_cases here : name = gone
      · subst here
        by_cases same : key = name
        · simpa [same] using ih
        · simpa [same, List.lookup_cons, beq_false_of_ne same] using ih
      · by_cases same : key = name
        · subst same
          simp [here]
        · simpa [here, List.lookup_cons, beq_false_of_ne same] using ih

theorem lookup_set (entries : List (κ × ν)) (key other : κ) (value : ν) :
    (set entries key value).lookup other =
      if other = key then some value else entries.lookup other := by
  unfold set
  rw [List.lookup_cons]
  by_cases same : other = key
  · simp [same]
  · simp [same, beq_false_of_ne same, lookup_erase]

/-- The value of a key. -/
def find (entries : List (κ × ν)) (key : κ) : Option ν := entries.lookup key

theorem find_set (entries : List (κ × ν)) (key other : κ) (value : ν) :
    find (set entries key value) other = if other = key then some value else find entries other :=
  lookup_set entries key other value

theorem find_erase (entries : List (κ × ν)) (gone key : κ) :
    find (erase entries gone) key = if key = gone then none else find entries key :=
  lookup_erase entries gone key

theorem mem_erase {entries : List (κ × ν)} {gone : κ} {entry : κ × ν}
    (member : entry ∈ erase entries gone) : entry ∈ entries ∧ entry.1 ≠ gone := by
  obtain ⟨inside, other⟩ := List.mem_filter.mp member
  exact ⟨inside, of_decide_eq_true other⟩

theorem mem_set {entries : List (κ × ν)} {key : κ} {value : ν} {entry : κ × ν}
    (member : entry ∈ set entries key value) : entry = (key, value) ∨ entry ∈ entries :=
  (List.mem_cons.mp member).imp_right fun old => (mem_erase old).1

theorem nodup_erase {entries : List (κ × ν)} (distinct : (entries.map Prod.fst).Nodup)
    (gone : κ) : ((erase entries gone).map Prod.fst).Nodup :=
  distinct.sublist (List.filter_sublist.map Prod.fst)

theorem nodup_set {entries : List (κ × ν)} (distinct : (entries.map Prod.fst).Nodup) (key : κ)
    (value : ν) : ((set entries key value).map Prod.fst).Nodup := by
  rw [set, List.map_cons, List.nodup_cons]
  refine ⟨fun member => ?_, nodup_erase distinct key⟩
  obtain ⟨entry, inside, same⟩ := List.mem_map.mp member
  exact (mem_erase inside).2 same

/-- Entries with distinct keys can all be looked up after they have been set. -/
theorem lookup_foldl_set {μ : Type*} (value : μ → ν) {entries : List (κ × μ)}
    (distinct : (entries.map Prod.fst).Nodup) (base : List (κ × ν)) (key : κ) :
    (entries.foldl (fun base entry => set base entry.1 (value entry.2)) base).lookup key =
      ((entries.lookup key).map value).or (base.lookup key) := by
  induction entries generalizing base with
  | nil => rfl
  | cons entry rest ih =>
      obtain ⟨name, content⟩ := entry
      rw [List.map_cons, List.nodup_cons] at distinct
      rw [List.foldl_cons, ih distinct.2, lookup_set, List.lookup_cons]
      by_cases here : key = name
      · have absent := lookup_eq_none_of_not_mem (here ▸ distinct.1)
        rw [absent, if_pos here, here, beq_self_eq_true]
        rfl
      · rw [if_neg here, beq_false_of_ne here]

omit [DecidableEq κ] in
theorem lookup_of_mem [BEq κ] [LawfulBEq κ] {entries : List (κ × ν)} (distinct : (entries.map Prod.fst).Nodup)
    {entry : κ × ν} (member : entry ∈ entries) : entries.lookup entry.1 = some entry.2 := by
  induction entries with
  | nil => cases member
  | cons first rest ih =>
      rw [List.map_cons, List.nodup_cons] at distinct
      rw [List.lookup_cons]
      rcases List.mem_cons.mp member with rfl | later
      · rw [beq_self_eq_true]
      · have other : entry.1 ≠ first.1 := fun same =>
          distinct.1 (same ▸ List.mem_map_of_mem later)
        rw [beq_false_of_ne other, ih distinct.2 later]

/-- A change which leaves every value alone leaves the map alone. -/
theorem map_lookup_of_fixed {change : ν → ν} {entries : List (κ × ν)}
    (fixed : ∀ entry ∈ entries, change entry.2 = entry.2) (key : κ) :
    (entries.lookup key).map change = entries.lookup key := by
  induction entries with
  | nil => rfl
  | cons first rest ih =>
      rw [List.forall_mem_cons] at fixed
      rw [List.lookup_cons]
      by_cases here : key = first.1
      · rw [here, beq_self_eq_true]
        exact congrArg some fixed.1
      · rw [beq_false_of_ne here]
        exact ih fixed.2

theorem find_foldl_set {μ : Type*} (value : μ → ν) {entries : List (κ × μ)}
    (distinct : (entries.map Prod.fst).Nodup) (key : κ) :
    find (entries.foldl (fun base entry => set base entry.1 (value entry.2)) []) key =
      (find entries key).map value := by
  have set_all := lookup_foldl_set value distinct [] key
  rw [List.lookup_nil, Option.or_none] at set_all
  exact set_all

theorem find_map_of_fixed {change : ν → ν} {entries : List (κ × ν)}
    (fixed : ∀ entry ∈ entries, change entry.2 = entry.2) (key : κ) :
    (find entries key).map change = find entries key := map_lookup_of_fixed fixed key

/-- Setting all the entries of a map makes the map again. -/
theorem foldl_set_same {change : ν → ν} {entries : List (κ × ν)}
    (distinct : (entries.map Prod.fst).Nodup)
    (fixed : ∀ entry ∈ entries, change entry.2 = entry.2) :
    Same (entries.foldl (fun base entry => set base entry.1 (change entry.2)) []) entries := by
  intro key
  rw [lookup_foldl_set change distinct, map_lookup_of_fixed fixed, List.lookup_nil, Option.or_none]

section Assignments

/-- The value which is left of assignments one after the other. -/
def last (entries : List (κ × ν)) (key : κ) : Option ν := entries.reverse.lookup key

theorem last_append (first second : List (κ × ν)) (key : κ) :
    last (first ++ second) key = (last second key).or (last first key) := by
  unfold last
  rw [List.reverse_append]
  exact lookup_overlay first.reverse second.reverse key

theorem last_singleton (entry : κ × ν) (key : κ) :
    last [entry] key = if key = entry.1 then some entry.2 else none := by
  rw [last, List.reverse_singleton, List.lookup_cons]
  by_cases same : key = entry.1
  · simp [same]
  · simp [same, beq_false_of_ne same]

theorem mem_of_last {entries : List (κ × ν)} {key : κ} {value : ν}
    (found : last entries key = some value) : (key, value) ∈ entries := by
  obtain ⟨before, behind, whole, -⟩ := List.lookup_eq_some_iff.mp found
  rw [← List.mem_reverse, whole]
  exact List.mem_append_right _ List.mem_cons_self

theorem last_ne_none_of_mem {entries : List (κ × ν)} {entry : κ × ν} (member : entry ∈ entries) :
    last entries entry.1 ≠ none := by
  intro absent
  rw [last, List.lookup_eq_none_iff] at absent
  simpa using absent entry (List.mem_reverse.mpr member)

/-- Leaving out assignments of some values makes no difference to a key which is not left with
one of them. -/
theorem last_filter {keeps : ν → Bool} (entries : List (κ × ν)) (key : κ)
    (kept : ∀ value, last entries key = some value → keeps value = true) :
    last (entries.filter fun entry => keeps entry.2) key = last entries key := by
  induction entries using List.reverseRecOn with
  | nil => rfl
  | append_singleton rest entry ih =>
      rw [last_append, last_singleton] at kept ⊢
      rw [List.filter_append, last_append]
      by_cases here : key = entry.1
      · rw [if_pos here] at kept ⊢
        have keeps_it : keeps entry.2 = true := kept entry.2 rfl
        simp [keeps_it, last_singleton, here]
      · rw [if_neg here] at kept ⊢
        rw [ih kept]
        by_cases keeps_it : keeps entry.2 = true
        · simp [keeps_it, last_singleton, here]
        · simp [keeps_it, last]

end Assignments

/-- Whatever can be looked up satisfies `P`. -/
def All (P : κ → ν → Prop) (entries : List (κ × ν)) : Prop :=
  ∀ key value, entries.lookup key = some value → P key value

section All

variable {P Q : κ → ν → Prop} {entries : List (κ × ν)}

theorem All.mono (all : All P entries) (weaker : ∀ key value, P key value → Q key value) :
    All Q entries := fun key value found => weaker key value (all key value found)

theorem All.erase (all : All P entries) (gone : κ) : All P (erase entries gone) := by
  intro key value found
  rw [lookup_erase] at found
  split at found
  · cases found
  · exact all key value found

theorem All.set (all : All P entries) {key : κ} {value : ν} (holds : P key value) :
    All P (set entries key value) := by
  intro other found same
  rw [lookup_set] at same
  split at same
  · rename_i here
    cases same
    exact here ▸ holds
  · exact all other found same

end All

variable [DecidableEq ν]

/-- The entries of `newer` which `old` does not have. -/
def diff (old newer : List (κ × ν)) : List (κ × ν) :=
  newer.filter fun entry => old.lookup entry.1 ≠ some entry.2

/-- A change event carries the new value of a variable exactly when it has changed. -/
theorem lookup_diff (old newer : List (κ × ν)) (distinct : (newer.map Prod.fst).Nodup) (key : κ) :
    (diff old newer).lookup key =
      if old.lookup key = newer.lookup key then none else newer.lookup key := by
  induction newer with
  | nil => exact (ite_self (List.lookup key [])).symm
  | cons entry rest ih =>
      obtain ⟨name, value⟩ := entry
      rw [List.map_cons, List.nodup_cons] at distinct
      have later := ih distinct.2
      unfold diff at later ⊢
      rw [List.filter_cons]
      by_cases here : key = name
      · subst here
        have absent := lookup_eq_none_of_not_mem distinct.1
        by_cases kept : old.lookup key = some value
        · rw [absent, ite_self] at later
          simpa [kept] using later
        · simp [kept]
      · have other : (key == name) = false := beq_false_of_ne here
        by_cases kept : old.lookup name = some value
        · simpa [kept, other, List.lookup_cons] using later
        · simpa [kept, other, List.lookup_cons] using later

/-- A replica of the old map becomes one of the new map, provided that no variable goes
away. -/
theorem overlay_diff_same {old newer replica : List (κ × ν)}
    (distinct : (newer.map Prod.fst).Nodup)
    (stable : ∀ key, newer.lookup key = none → old.lookup key = none)
    (replicates : Same replica old) : Same (overlay replica (diff old newer)) newer := by
  intro key
  rw [lookup_overlay, lookup_diff old newer distinct, replicates key]
  by_cases unchanged : old.lookup key = newer.lookup key
  · simp [unchanged]
  · cases found : newer.lookup key with
    | none => exact (unchanged (by rw [found, stable key found])).elim
    | some value =>
        rw [found] at unchanged
        rw [if_neg unchanged, Option.some_or]

end VarMap
