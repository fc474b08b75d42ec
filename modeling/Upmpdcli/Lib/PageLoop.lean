import Mathlib.Data.List.Basic

set_option autoImplicit false

/- A loop which reads a list page by page, and goes on while the last page was empty or full. -/
namespace PageLoop

variable {α σ : Type*}

/-- The variables of the loop: the last page, the offset of the next one, and what the body
computes. `visited` are the elements which the body has gone through. -/
structure State (α σ : Type*) where
  last : Option (List α) := none
  offset : Nat := 0
  acc : σ
  visited : List α := []

/-- A page which cannot be had ends the loop too. -/
inductive Ended (α σ : Type*)
  | done (s : State α σ)
  | failed (s : State α σ)

variable (size : Nat) (request : Nat → Option (List α)) (body : σ → List α → σ)

/-- `while not page or len(page) == size`. -/
def again : Option (List α) → Bool
  | none => true
  | some page => page.isEmpty || page.length == size

def turn (s : State α σ) (page : List α) : State α σ where
  last := some page
  offset := s.offset + page.length
  acc := body s.acc page
  visited := s.visited ++ page

/-- With `fuel` requests at most. -/
def run : Nat → State α σ → Option (Ended α σ)
  | 0, s => if again size s.last then none else some (.done s)
  | fuel + 1, s =>
      if again size s.last then
        match request s.offset with
        | none => some (.failed s)
        | some page => run fuel (turn body s page)
      else some (.done s)

/-- The loop ends after some number of requests, and its body has gone through `whole`. -/
def Visits (loop : Nat → Option (Ended α σ)) (whole : List α) : Prop :=
  ∃ fuel t, loop fuel = some (.done t) ∧ t.visited = whole

variable {size request body}

theorem run_succ_of_page {fuel : Nat} {s : State α σ} {page : List α}
    (more : again size s.last = true) (here : request s.offset = some page) :
    run size request body (fuel + 1) s = run size request body fuel (turn body s page) := by
  rw [run, if_pos more, here]

/-- A page which is neither empty nor full is the last one. -/
theorem run_of_open {s : State α σ} (open_ : again size s.last = false) (fuel : Nat) :
    run size request body fuel s = some (.done s) := by
  cases fuel with
  | zero => rw [run, if_neg (by simp [open_])]
  | succ fuel => rw [run, if_neg (by simp [open_])]

theorem again_some_eq_false_iff (page : List α) :
    again size (some page) = false ↔ 0 < page.length ∧ page.length ≠ size := by
  simp only [again, Bool.or_eq_false_iff, List.isEmpty_eq_false_iff, beq_eq_false_iff_ne,
    List.length_pos_iff]

/-- What a body makes of the elements of a page one by one, it makes of all the elements. -/
theorem acc_of_run {τ : Type*} (proj : σ → τ) {step : τ → α → τ}
    (each : ∀ acc page, proj (body acc page) = page.foldl step (proj acc)) {init : τ}
    {fuel : Nat} {s t : State α σ} (sofar : proj s.acc = s.visited.foldl step init)
    (ended : run size request body fuel s = some (.done t)) :
    proj t.acc = t.visited.foldl step init := by
  induction fuel generalizing s with
  | zero =>
      rw [run] at ended
      split at ended
      · cases ended
      · cases ended
        exact sofar
  | succ fuel ih =>
      rw [run] at ended
      split at ended
      · split at ended
        · cases ended
        · apply ih _ ended
          simp only [turn, List.foldl_append, each, sofar]
      · cases ended
        exact sofar

section Served

variable (whole : List α) (count : Nat → Nat)

/-- `count offset` elements from this offset, or what there is of them. -/
def served (offset : Nat) : List α := (whole.drop offset).take (count offset)

/-- From `start`, some full pages and then a last one, which is neither empty nor full. -/
def EndsOpen (size start : Nat) : Prop :=
  ∃ full, (∀ i < full, (served whole count (start + i * size)).length = size) ∧
    0 < (served whole count (start + full * size)).length ∧
    (served whole count (start + full * size)).length < size ∧
    start + full * size + (served whole count (start + full * size)).length = whole.length

variable {whole count}

theorem length_served_le (offset : Nat) (inside : offset ≤ whole.length) :
    offset + (served whole count offset).length ≤ whole.length := by
  simp only [served, List.length_take, List.length_drop]
  omega

theorem take_append_served (offset : Nat) :
    whole.take offset ++ served whole count offset =
      whole.take (offset + (served whole count offset).length) := by
  rw [served, List.take_add, List.length_take]
  congr 1
  rw [List.take_eq_take_iff]
  omega

theorem endsOpen_of_full {size start : Nat}
    (full : (served whole count start).length = size)
    (later : EndsOpen whole count size (start + size)) : EndsOpen whole count size start := by
  obtain ⟨pages, fulls, some_, open_, end_⟩ := later
  have shift (i : Nat) : start + size + i * size = start + (i + 1) * size := by
    rw [Nat.add_one_mul]
    omega
  rw [shift] at some_ open_ end_
  refine ⟨pages + 1, ?_, some_, open_, end_⟩
  intro i small
  cases i with
  | zero =>
      rw [Nat.zero_mul, Nat.add_zero]
      exact full
  | succ i =>
      rw [← shift]
      exact fulls i (by omega)

section Whole

variable (s : State α σ)

/-- The loop is to ask for another page, and its body has gone through what is before it. -/
structure Underway (size : Nat) (whole : List α) : Prop where
  more : again size s.last = true
  inside : s.offset ≤ whole.length
  visited : s.visited = whole.take s.offset

variable {s}

theorem visited_turn (under : Underway s size whole) :
    (turn body s (served whole count s.offset)).visited =
      whole.take (s.offset + (served whole count s.offset).length) := by
  rw [← take_append_served, ← under.visited]
  rfl

theorem underway_turn (under : Underway s size whole)
    (more : again size (some (served whole count s.offset)) = true) :
    Underway (turn body s (served whole count s.offset)) size whole where
  more := more
  inside := length_served_le s.offset under.inside
  visited := visited_turn under

theorem endsOpen_of_run (atMost : ∀ offset, (served whole count offset).length ≤ size) {fuel : Nat}
    {t : State α σ} (under : Underway s size whole)
    (ended : run size (fun offset => some (served whole count offset)) body fuel s =
      some (.done t))
    (all : t.visited = whole) : EndsOpen whole count size s.offset := by
  induction fuel generalizing s with
  | zero =>
      rw [run, if_pos under.more] at ended
      cases ended
  | succ fuel ih =>
      rw [run_succ_of_page under.more rfl] at ended
      cases more : again size (some (served whole count s.offset)) with
      | false =>
          obtain ⟨some_, notFull⟩ := (again_some_eq_false_iff _).mp more
          rw [run_of_open (s := turn body s (served whole count s.offset)) more] at ended
          cases ended
          rw [visited_turn under] at all
          have end_ := congrArg List.length all
          have small := atMost s.offset
          have inside : s.offset + (served whole count s.offset).length ≤ whole.length :=
            length_served_le s.offset under.inside
          rw [List.length_take] at end_
          refine ⟨0, fun i none => absurd none (Nat.not_lt_zero i), ?_⟩
          rw [Nat.zero_mul, Nat.add_zero]
          omega
      | true =>
          have later := ih (underway_turn under more) ended
          change EndsOpen whole count size (s.offset + (served whole count s.offset).length) at later
          by_cases full : (served whole count s.offset).length = size
          · rw [full] at later
            exact endsOpen_of_full full later
          · -- an empty page: the next request is the same one
            have empty : (served whole count s.offset).length = 0 := by
              by_contra some_
              rw [(again_some_eq_false_iff _).mpr ⟨by omega, full⟩] at more
              cases more
            rwa [empty] at later

theorem run_of_endsOpen (under : Underway s size whole)
    (open_ : EndsOpen whole count size s.offset) :
    Visits (fun fuel => run size (fun offset => some (served whole count offset)) body fuel s)
      whole := by
  obtain ⟨pages, fulls, some_, notFull, end_⟩ := open_
  induction pages generalizing s with
  | zero =>
      rw [Nat.zero_mul, Nat.add_zero] at some_ notFull end_
      have last : again size (some (served whole count s.offset)) = false :=
        (again_some_eq_false_iff _).mpr ⟨some_, by omega⟩
      refine ⟨1, turn body s (served whole count s.offset), ?_, ?_⟩
      · dsimp only
        rw [run_succ_of_page under.more rfl]
        exact run_of_open last 0
      · rw [visited_turn under, end_, List.take_length]
  | succ pages ih =>
      have full : (served whole count s.offset).length = size := by
        have first := fulls 0 (by omega)
        rwa [Nat.zero_mul, Nat.add_zero] at first
      have shift (i : Nat) : s.offset + size + i * size = s.offset + (i + 1) * size := by
        rw [Nat.add_one_mul]
        omega
      have more : again size (some (served whole count s.offset)) = true := by
        simp [again, full]
      have offset : (turn body s (served whole count s.offset)).offset = s.offset + size := by
        rw [← full]
        rfl
      rw [← shift] at some_ notFull end_
      obtain ⟨fuel, t, ended, all⟩ := ih (underway_turn under more)
        (fun i small => by
          rw [offset, shift]
          exact fulls (i + 1) (by omega))
        (by rwa [offset]) (by rwa [offset]) (by rwa [offset])
      refine ⟨fuel + 1, t, ?_, all⟩
      dsimp only
      rw [run_succ_of_page under.more rfl]
      exact ended

/-- The loop ends with the whole list exactly when every page is full but the last one, which
is not empty. -/
theorem visits_iff (atMost : ∀ offset, (served whole count offset).length ≤ size) (acc : σ) :
    Visits (fun fuel => run size (fun offset => some (served whole count offset)) body fuel
      { acc := acc }) whole ↔ EndsOpen whole count size 0 := by
  have under : Underway (α := α) { acc := acc } size whole :=
    ⟨rfl, Nat.zero_le _, (List.take_zero).symm⟩
  constructor
  · rintro ⟨fuel, t, ended, all⟩
    exact endsOpen_of_run atMost under ended all
  · intro open_
    exact run_of_endsOpen under open_

end Whole

section Full

theorem length_served_full (offset : Nat) :
    (served whole (fun _ => size) offset).length = min size (whole.length - offset) := by
  rw [served, List.length_take, List.length_drop]

/-- A server which gives as many elements as it is asked for ends with such a page exactly when
the length is no multiple of the size of a page. -/
theorem endsOpen_of_full_pages_iff (positive : 0 < size) :
    EndsOpen whole (fun _ => size) size 0 ↔ whole.length % size ≠ 0 := by
  unfold EndsOpen
  simp only [length_served_full, Nat.zero_add]
  constructor
  · rintro ⟨full, -, some_, notFull, end_⟩
    have rest : whole.length = size * full + min size (whole.length - full * size) := by
      rw [Nat.mul_comm]
      omega
    rw [rest, Nat.mul_add_mod, Nat.mod_eq_of_lt (by omega)]
    omega
  · intro some_
    have split := Nat.div_add_mod' whole.length size
    have small := Nat.mod_lt whole.length positive
    refine ⟨whole.length / size, ?_, by omega, by omega, by omega⟩
    intro i before
    have bound : (i + 1) * size ≤ whole.length / size * size :=
      Nat.mul_le_mul_right size (by omega)
    rw [Nat.add_one_mul] at bound
    omega

/-- For the other lengths the loop never ends. -/
theorem run_eq_none {s : State α σ} (under : Underway s size whole)
    (multiple : size ∣ whole.length) (aligned : size ∣ s.offset) (fuel : Nat) :
    run size (fun offset => some (served whole (fun _ => size) offset)) body fuel s = none := by
  induction fuel generalizing s with
  | zero => rw [run, if_pos under.more]
  | succ fuel ih =>
      have rest : size ∣ whole.length - s.offset := Nat.dvd_sub multiple aligned
      have length : (served whole (fun _ => size) s.offset).length =
          min size (whole.length - s.offset) := length_served_full s.offset
      have full : (served whole (fun _ => size) s.offset).length = 0 ∨
          (served whole (fun _ => size) s.offset).length = size := by
        rcases Nat.eq_zero_or_pos (whole.length - s.offset) with none_ | some_
        · omega
        · have fits := Nat.le_of_dvd some_ rest
          omega
      have more : again size (some (served whole (fun _ => size) s.offset)) = true := by
        by_contra open_
        have between := (again_some_eq_false_iff _).mp (Bool.eq_false_iff.mpr open_)
        omega
      rw [run_succ_of_page under.more rfl]
      apply ih (underway_turn under more)
      change size ∣ s.offset + (served whole (fun _ => size) s.offset).length
      rcases full with empty | full
      · rwa [empty]
      · rw [full]
        exact (Nat.dvd_add_right aligned).mpr (Nat.dvd_refl size)

end Full

end Served

end PageLoop
