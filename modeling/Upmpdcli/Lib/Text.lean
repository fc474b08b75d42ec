import Upmpdcli.Lib.Strip

set_option autoImplicit false

/- Texts as lists of characters: numbers, blanks, looking for a part of a text. -/
namespace Text

/-- `isspace` of one character. -/
def isspace (c : Char) : Bool :=
  let code := c.toNat
  (0x9 ≤ code && code ≤ 0xd) || (0x1c ≤ code && code ≤ 0x20) || code = 0x85 || code = 0xa0 ||
    code = 0x1680 || (0x2000 ≤ code && code ≤ 0x200a) || code = 0x2028 || code = 0x2029 ||
    code = 0x202f || code = 0x205f || code = 0x3000

/-- The zeros of all scripts. The other digits of a script are behind its zero. -/
def zeros : List Nat :=
  [0x30, 0x660, 0x6f0, 0x7c0, 0x966, 0x9e6, 0xa66, 0xae6, 0xb66, 0xbe6, 0xc66, 0xce6, 0xd66,
    0xde6, 0xe50, 0xed0, 0xf20, 0x1040, 0x1090, 0x17e0, 0x1810, 0x1946, 0x19d0, 0x1a80, 0x1a90,
    0x1b50, 0x1bb0, 0x1c40, 0x1c50, 0xa620, 0xa8d0, 0xa900, 0xa9d0, 0xa9f0, 0xaa50, 0xabf0, 0xff10,
    0x104a0, 0x10d30, 0x11066, 0x110f0, 0x11136, 0x111d0, 0x112f0, 0x11450, 0x114d0, 0x11650,
    0x116c0, 0x11730, 0x118e0, 0x11950, 0x11c50, 0x11d50, 0x11da0, 0x16a60, 0x16ac0, 0x16b50,
    0x1d7ce, 0x1d7d8, 0x1d7e2, 0x1d7ec, 0x1d7f6, 0x1e140, 0x1e2f0, 0x1e950, 0x1fbf0]

def decimal (c : Char) : Option Nat :=
  (zeros.find? fun first => first ≤ c.toNat && c.toNat < first + 10).map (c.toNat - ·)

/-- Digits, with single underscores between them. `digit` says whether a digit was read last. -/
def digits : List Char → (digit : Bool) → Nat → Option Nat
  | [], digit, n => if digit then some n else none
  | c :: rest, digit, n =>
      if c = '_' ∧ digit then digits rest false n
      else (decimal c).bind fun value => digits rest true (10 * n + value)

/-- The number which `int` reads. -/
def int (text : List Char) : Option Int :=
  match Strip.strip isspace text with
  | '-' :: rest => (digits rest false 0).map fun n : Nat => -(n : Int)
  | '+' :: rest => (digits rest false 0).map fun n : Nat => (n : Int)
  | rest => (digits rest false 0).map fun n : Nat => (n : Int)

/-- A natural number in base 10. -/
def str (n : Nat) : List Char := Nat.toDigits 10 n

def strInt (n : Int) : List Char := if n < 0 then '-' :: str n.natAbs else str n.natAbs

section Printed

variable {n : Nat} {c : Char}

theorem isDigit_of_mem_str (member : c ∈ str n) : c.isDigit = true :=
  Nat.isDigit_of_mem_toDigits (by decide) (by decide) member

theorem toNat_of_isDigit (digit : c.isDigit = true) : 0x30 ≤ c.toNat ∧ c.toNat ≤ 0x39 := by
  simpa [Char.isDigit, UInt32.le_iff_toNat_le] using digit

theorem str_ne_nil (n : Nat) : str n ≠ [] := Nat.toDigits_ne_nil

theorem not_isspace_of_isDigit (digit : c.isDigit = true) : isspace c = false := by
  have bounds := toNat_of_isDigit digit
  simp only [isspace, Bool.or_eq_false_iff, Bool.and_eq_false_iff, decide_eq_false_iff_not]
  omega

theorem decimal_of_isDigit (digit : c.isDigit = true) : decimal c = some (c.toNat - 0x30) := by
  have bounds := toNat_of_isDigit digit
  have here : (zeros.find? fun first => first ≤ c.toNat && c.toNat < first + 10) = some 0x30 :=
    List.find?_cons_of_pos (by simp only [Bool.and_eq_true, decide_eq_true_eq]; omega)
  rw [decimal, here, Option.map_some]

theorem digits_of_isDigit {text : List Char} (all : ∀ c ∈ text, c.isDigit = true) (digit : Bool)
    (start : Nat) (some_digit : text ≠ [] ∨ digit = true) :
    digits text digit start = some (Nat.ofDigitChars 10 text start) := by
  induction text generalizing digit start with
  | nil =>
      rw [digits, if_pos (by simpa using some_digit), Nat.ofDigitChars_nil]
  | cons c rest ih =>
      rw [List.forall_mem_cons] at all
      have no_line : ¬ (c = '_' ∧ digit = true) := by
        rintro ⟨rfl, -⟩
        exact absurd all.1 (by decide)
      rw [digits, if_neg no_line, decimal_of_isDigit all.1, Option.bind_some,
        ih all.2 true _ (.inr rfl), Nat.ofDigitChars_cons]
      rfl

theorem digits_str (n : Nat) : digits (str n) false 0 = some n := by
  rw [digits_of_isDigit (fun c => isDigit_of_mem_str) false 0 (.inl (str_ne_nil n)), str,
    Nat.ofDigitChars_ten_toDigits]

/-- A number is read back as it was printed. -/
theorem int_str (n : Nat) : int (str n) = some (n : Int) := by
  have stripped : Strip.strip isspace (str n) = str n := by
    refine Strip.strip_of_stripped ⟨fun c first => ?_, fun c last => ?_⟩
    · exact not_isspace_of_isDigit (isDigit_of_mem_str (List.mem_of_mem_head? first))
    · exact not_isspace_of_isDigit (isDigit_of_mem_str (List.mem_of_getLast? last))
  unfold int
  rw [stripped]
  split
  · rename_i rest begins
    exact absurd (isDigit_of_mem_str (n := n) (begins ▸ List.mem_cons_self)) (by decide)
  · rename_i rest begins
    exact absurd (isDigit_of_mem_str (n := n) (begins ▸ List.mem_cons_self)) (by decide)
  · rw [digits_str, Option.map_some]

@[simp] theorem strInt_natCast (n : Nat) : strInt n = str n := by
  rw [strInt, if_neg (by omega), Int.natAbs_natCast]

theorem int_strInt (n : Int) : int (strInt n) = some n := by
  by_cases negative : n < 0
  · have stripped : Strip.strip isspace ('-' :: str n.natAbs) = '-' :: str n.natAbs := by
      refine Strip.strip_of_stripped ⟨fun c first => ?_, fun c last => ?_⟩
      · cases first
        decide
      · rw [List.getLast?_cons_of_ne_nil (str_ne_nil n.natAbs)] at last
        exact not_isspace_of_isDigit (isDigit_of_mem_str (List.mem_of_getLast? last))
    unfold strInt int
    rw [if_pos negative, stripped]
    change (digits (str n.natAbs) false 0).map (fun k : Nat => -(k : Int)) = some n
    rw [digits_str, Option.map_some]
    congr 1
    omega
  · rw [strInt, if_neg negative, int_str]
    congr 1
    omega

theorem str_injective : Function.Injective str := by
  intro m n same
  have read := int_str m
  rw [same, int_str, Option.some.injEq] at read
  exact (Int.ofNat_inj.mp read).symm

/-- No number begins with such a character. -/
theorem int_eq_none {c : Char} (no_space : isspace c = false) (no_digit : decimal c = none)
    (no_sign : c ≠ '-' ∧ c ≠ '+') (rest : List Char) : int (c :: rest) = none := by
  obtain ⟨front, stripped⟩ := Strip.strip_cons_of_kept no_space rest
  rw [int, stripped]
  split
  · rename_i minus
    exact absurd (List.cons.inj minus).1 no_sign.1
  · rename_i plus
    exact absurd (List.cons.inj plus).1 no_sign.2
  · simp [digits, no_digit]

end Printed

section Parts

variable {α : Type*} [DecidableEq α]

/-- Where the first occurrence of `part` begins. -/
def find (part : List α) : List α → Option Nat
  | [] => if part = [] then some 0 else none
  | c :: rest =>
      if part.isPrefixOf (c :: rest) then some 0 else (find part rest).map (· + 1)

/-- A part whose first element comes nowhere before it is found where it is. -/
theorem find_append {c : α} {part before : List α} (absent : c ∉ before) (rest : List α) :
    find (c :: part) (before ++ c :: part ++ rest) = some before.length := by
  induction before with
  | nil => simp [find]
  | cons d before ih =>
      rw [List.mem_cons, not_or] at absent
      have other : (c :: part).isPrefixOf (d :: (before ++ c :: part ++ rest)) = false := by
        simp [List.isPrefixOf, absent.1]
      rw [List.cons_append, List.cons_append, find, other, if_neg Bool.false_ne_true, ih absent.2]
      rfl

theorem find_eq_none {c : α} {part text : List α} (absent : c ∉ text) :
    find (c :: part) text = none := by
  induction text with
  | nil => simp [find]
  | cons d text ih =>
      rw [List.mem_cons, not_or] at absent
      have other : (c :: part).isPrefixOf (d :: text) = false := by
        simp [List.isPrefixOf, absent.1]
      rw [find, other, if_neg Bool.false_ne_true, ih absent.2]
      rfl

/-- Where a part is found it stands. -/
theorem find_eq_some {part text : List α} {start : Nat} (found : find part text = some start) :
    ∃ before behind, text = before ++ (part ++ behind) ∧ before.length = start := by
  induction text generalizing start with
  | nil =>
      rw [find] at found
      split at found
      · rename_i empty
        cases found
        exact ⟨[], [], by rw [empty]; rfl, rfl⟩
      · cases found
  | cons c rest ih =>
      rw [find] at found
      split at found
      · rename_i here
        cases found
        obtain ⟨behind, split⟩ := List.isPrefixOf_iff_prefix.mp here
        exact ⟨[], behind, split.symm, rfl⟩
      · obtain ⟨start, later, rfl⟩ := Option.map_eq_some_iff.mp found
        obtain ⟨before, behind, split, long⟩ := ih later
        exact ⟨c :: before, behind, congrArg (c :: ·) split, congrArg (· + 1) long⟩

/-- Where the last occurrence of `part` begins. -/
def rfind (part : List α) : List α → Option Nat
  | [] => if part = [] then some 0 else none
  | c :: rest =>
      match rfind part rest with
      | some found => some (found + 1)
      | none => if part.isPrefixOf (c :: rest) then some 0 else none

theorem rfind_eq_none {part text : List α} (some_part : part ≠ []) (absent : ¬ part <:+: text) :
    rfind part text = none := by
  induction text with
  | nil => rw [rfind, if_neg some_part]
  | cons c rest ih =>
      rw [List.infix_cons_iff, not_or] at absent
      rw [rfind, ih absent.2]
      dsimp only
      rw [if_neg fun here => absent.1 (List.isPrefixOf_iff_prefix.mp here)]

/-- A part whose first element comes nowhere behind it is the last one. -/
theorem rfind_append {c : α} {part behind : List α} (absent : c ∉ part ++ behind)
    (before : List α) :
    rfind (c :: part) (before ++ c :: (part ++ behind)) = some before.length := by
  induction before with
  | nil =>
      have none_behind : rfind (c :: part) (part ++ behind) = none :=
        rfind_eq_none (List.cons_ne_nil _ _) fun inside =>
          absent (inside.subset List.mem_cons_self)
      rw [List.nil_append, rfind, none_behind]
      simp
  | cons d before ih =>
      rw [List.cons_append, rfind, ih]
      rfl

/-- What stands between the occurrences of a separator. `skip` is what is left of the
separator. -/
def splitFrom (sep : List α) : List α → (skip : Nat) → List α → List (List α)
  | [], _, current => [current]
  | _ :: rest, skip + 1, current => splitFrom sep rest skip current
  | c :: rest, 0, current =>
      if sep.isPrefixOf (c :: rest) then current :: splitFrom sep rest (sep.length - 1) []
      else splitFrom sep rest 0 (current ++ [c])

def split (sep text : List α) : List (List α) := splitFrom sep text 0 []

end Parts

section SplitOn

variable {α : Type*} [DecidableEq α] {sep : α}

theorem splitOn_append_of_not_mem {first : List α} (absent : sep ∉ first) (rest : List α) :
    (first ++ rest).splitOn sep = (rest.splitOn sep).modifyHead (first ++ ·) := by
  induction first with
  | nil =>
      rw [List.nil_append]
      cases rest.splitOn sep with
      | nil => rfl
      | cons piece pieces => rfl
  | cons a first ih =>
      rw [List.mem_cons, not_or] at absent
      rw [List.cons_append, List.splitOn_cons_eq_if_modifyHead,
        if_neg (by simpa using Ne.symm absent.1), ih absent.2]
      cases rest.splitOn sep with
      | nil => rfl
      | cons piece pieces => rfl

theorem not_mem_of_mem_splitOn {text piece : List α} (member : piece ∈ text.splitOn sep) :
    sep ∉ piece := by
  induction text generalizing piece with
  | nil =>
      rw [List.splitOn_nil, List.mem_singleton] at member
      rw [member]
      exact List.not_mem_nil
  | cons a text ih =>
      rw [List.splitOn_cons_eq_if_modifyHead] at member
      split at member
      · rcases List.mem_cons.mp member with rfl | later
        · exact List.not_mem_nil
        · exact ih later
      · rename_i differ
        cases pieces : text.splitOn sep with
        | nil => exact absurd pieces (List.splitOn_ne_nil sep text)
        | cons first rest =>
            rw [pieces] at member ih
            rcases List.mem_cons.mp member with rfl | later
            · rw [List.mem_cons, not_or]
              exact ⟨fun same => differ (by simp [same]), ih List.mem_cons_self⟩
            · exact ih (List.mem_cons_of_mem first later)

/-- A separator with an element behind it begins a piece. -/
theorem exists_piece_of_infix {c : α} (other : c ≠ sep) {text : List α}
    (inside : [sep, c] <:+: text) : ∃ piece ∈ text.splitOn sep, piece.head? = some c := by
  obtain ⟨before, behind, rfl⟩ := inside
  have split : before ++ [sep, c] ++ behind = before ++ sep :: (c :: behind) := by simp
  rw [split, List.splitOn_append_cons_self]
  cases pieces : behind.splitOn sep with
  | nil => exact absurd pieces (List.splitOn_ne_nil sep behind)
  | cons first rest =>
      refine ⟨c :: first, List.mem_append_right _ ?_, rfl⟩
      rw [List.splitOn_cons_eq_if_modifyHead, if_neg (by simpa using other), pieces]
      exact List.mem_cons_self

end SplitOn

end Text
