import Mathlib.Data.List.Basic

set_option autoImplicit false

/- Base64 with the standard alphabet and padding. -/
namespace Base64

def alphabet : List Char :=
  "ABCDEFGHIJKLMNOPQRSTUVWXYZabcdefghijklmnopqrstuvwxyz0123456789+/".toList

def digit (n : Nat) : Char := alphabet.getD n 'A'

def value (c : Char) : Option Nat := alphabet.idxOf? c

/-- Three bytes make four digits. -/
def encodeGroups : List UInt8 → List Char
  | [] => []
  | [a] => [digit (a.toNat / 4), digit (a.toNat % 4 * 16), '=', '=']
  | [a, b] =>
      [digit (a.toNat / 4), digit (a.toNat % 4 * 16 + b.toNat / 16), digit (b.toNat % 16 * 4), '=']
  | a :: b :: c :: rest =>
      digit (a.toNat / 4) :: digit (a.toNat % 4 * 16 + b.toNat / 16) ::
        digit (b.toNat % 16 * 4 + c.toNat / 64) :: digit (c.toNat % 64) :: encodeGroups rest

def encode (bytes : List UInt8) : String := String.ofList (encodeGroups bytes)

/-- The bytes of four digits, the last two of which may be padding. -/
def decodeGroup (a b c d : Char) : Option (List UInt8) :=
  match value a, value b, value c, value d with
  | some a, some b, some c, some d =>
      some [UInt8.ofNat (a * 4 + b / 16), UInt8.ofNat (b % 16 * 16 + c / 4),
        UInt8.ofNat (c % 4 * 64 + d)]
  | some a, some b, some c, none =>
      if d = '=' then some [UInt8.ofNat (a * 4 + b / 16), UInt8.ofNat (b % 16 * 16 + c / 4)]
      else none
  | some a, some b, none, none =>
      if c = '=' ∧ d = '=' then some [UInt8.ofNat (a * 4 + b / 16)] else none
  | _, _, _, _ => none

def decodeGroups : List Char → Option (List UInt8)
  | [] => some []
  | a :: b :: c :: d :: rest =>
      match decodeGroup a b c d, decodeGroups rest with
      | some bytes, some later => some (bytes ++ later)
      | _, _ => none
  | _ => none

def decode (text : String) : Option (List UInt8) := decodeGroups text.toList

theorem value_digit {n : Nat} (small : n < 64) : value (digit n) = some n := by
  revert n
  decide

theorem value_marks : value '=' = none ∧ value '/' = some 63 ∧ digit 63 = '/' := by
  decide

theorem value_padding : value '=' = none := value_marks.1

theorem byte_of_halves (byte : UInt8) {n : Nat} (same : n = byte.toNat) : UInt8.ofNat n = byte := by
  rw [same, UInt8.ofNat_toNat]

/-- The digits of one byte. -/
theorem decodeGroup_one (a : UInt8) :
    decodeGroup (digit (a.toNat / 4)) (digit (a.toNat % 4 * 16)) '=' '=' = some [a] := by
  have small := a.toNat_lt
  unfold decodeGroup
  rw [value_digit (show a.toNat / 4 < 64 by omega),
    value_digit (show a.toNat % 4 * 16 < 64 by omega), value_padding]
  dsimp only
  rw [if_pos ⟨rfl, rfl⟩, byte_of_halves a (by omega)]

theorem decodeGroup_two (a b : UInt8) :
    decodeGroup (digit (a.toNat / 4)) (digit (a.toNat % 4 * 16 + b.toNat / 16))
      (digit (b.toNat % 16 * 4)) '=' = some [a, b] := by
  have small := a.toNat_lt
  have small' := b.toNat_lt
  unfold decodeGroup
  rw [value_digit (show a.toNat / 4 < 64 by omega),
    value_digit (show a.toNat % 4 * 16 + b.toNat / 16 < 64 by omega),
    value_digit (show b.toNat % 16 * 4 < 64 by omega), value_padding]
  dsimp only
  rw [if_pos rfl, byte_of_halves a (by omega), byte_of_halves b (by omega)]

theorem decodeGroup_three (a b c : UInt8) :
    decodeGroup (digit (a.toNat / 4)) (digit (a.toNat % 4 * 16 + b.toNat / 16))
      (digit (b.toNat % 16 * 4 + c.toNat / 64)) (digit (c.toNat % 64)) = some [a, b, c] := by
  have small := a.toNat_lt
  have small' := b.toNat_lt
  have small'' := c.toNat_lt
  unfold decodeGroup
  rw [value_digit (show a.toNat / 4 < 64 by omega),
    value_digit (show a.toNat % 4 * 16 + b.toNat / 16 < 64 by omega),
    value_digit (show b.toNat % 16 * 4 + c.toNat / 64 < 64 by omega),
    value_digit (show c.toNat % 64 < 64 by omega)]
  dsimp only
  rw [byte_of_halves a (by omega), byte_of_halves b (by omega), byte_of_halves c (by omega)]

theorem decodeGroups_encodeGroups (bytes : List UInt8) :
    decodeGroups (encodeGroups bytes) = some bytes := by
  induction bytes using encodeGroups.induct with
  | case1 => rfl
  | case2 a =>
      rw [encodeGroups, decodeGroups, decodeGroup_one]
      rfl
  | case3 a b =>
      rw [encodeGroups, decodeGroups, decodeGroup_two]
      rfl
  | case4 a b c rest ih =>
      rw [encodeGroups, decodeGroups, decodeGroup_three, ih]
      rfl

theorem decode_encode (bytes : List UInt8) : decode (encode bytes) = some bytes := by
  rw [decode, encode, String.toList_ofList, decodeGroups_encodeGroups]

/-- A decoder which skips what is no digit. `quad` digits of a group have been read, of which
`left` are the bits not yet used, and `pads` counts the padding behind them. -/
def looseFrom : List Char → (quad left pads : Nat) → Option (List UInt8)
  | [], quad, _, _ => if quad = 0 then some [] else none
  | c :: rest, quad, left, pads =>
      if c = '=' then
        if 2 ≤ quad then
          if 4 ≤ quad + (pads + 1) then some [] else looseFrom rest quad left (pads + 1)
        else looseFrom rest quad left pads
      else
        match value c with
        | none => looseFrom rest quad left pads
        | some digit =>
            match quad with
            | 0 => looseFrom rest 1 digit 0
            | 1 =>
                (looseFrom rest 2 (digit % 16) 0).map (UInt8.ofNat (left * 4 + digit / 16) :: ·)
            | 2 =>
                (looseFrom rest 3 (digit % 4) 0).map (UInt8.ofNat (left * 16 + digit / 4) :: ·)
            | _ => (looseFrom rest 0 0 0).map (UInt8.ofNat (left * 64 + digit) :: ·)

def looseDecode (text : List Char) : Option (List UInt8) := looseFrom text 0 0 0

theorem digit_ne_padding {n : Nat} (small : n < 64) : digit n ≠ '=' := by
  intro same
  have read := value_digit small
  rw [same, value_padding] at read
  cases read

section Loose

variable {n left pads : Nat} (small : n < 64) (rest : List Char)

include small

theorem looseFrom_first : looseFrom (digit n :: rest) 0 left pads = looseFrom rest 1 n 0 := by
  rw [looseFrom, if_neg (digit_ne_padding small), value_digit small]
  rfl

theorem looseFrom_second :
    looseFrom (digit n :: rest) 1 left pads =
      (looseFrom rest 2 (n % 16) 0).map (UInt8.ofNat (left * 4 + n / 16) :: ·) := by
  rw [looseFrom, if_neg (digit_ne_padding small), value_digit small]
  rfl

theorem looseFrom_third :
    looseFrom (digit n :: rest) 2 left pads =
      (looseFrom rest 3 (n % 4) 0).map (UInt8.ofNat (left * 16 + n / 4) :: ·) := by
  rw [looseFrom, if_neg (digit_ne_padding small), value_digit small]
  rfl

theorem looseFrom_fourth :
    looseFrom (digit n :: rest) 3 left pads =
      (looseFrom rest 0 0 0).map (UInt8.ofNat (left * 64 + n) :: ·) := by
  rw [looseFrom, if_neg (digit_ne_padding small), value_digit small]
  rfl

end Loose

/-- A whole group. -/
theorem looseDecode_group (a b c : UInt8) (rest : List Char) :
    looseDecode (digit (a.toNat / 4) :: digit (a.toNat % 4 * 16 + b.toNat / 16) ::
        digit (b.toNat % 16 * 4 + c.toNat / 64) :: digit (c.toNat % 64) :: rest) =
      (looseDecode rest).map fun later => a :: b :: c :: later := by
  have small := a.toNat_lt
  have small' := b.toNat_lt
  have small'' := c.toNat_lt
  unfold looseDecode
  rw [looseFrom_first (by omega), looseFrom_second (by omega), looseFrom_third (by omega),
    looseFrom_fourth (by omega), byte_of_halves a (by omega), byte_of_halves b (by omega),
    byte_of_halves c (by omega), Option.map_map, Option.map_map]
  rfl

theorem looseDecode_encodeGroups (bytes : List UInt8) :
    looseDecode (encodeGroups bytes) = some bytes := by
  induction bytes using encodeGroups.induct with
  | case1 => rfl
  | case2 a =>
      have small := a.toNat_lt
      rw [encodeGroups, looseDecode, looseFrom_first (by omega), looseFrom_second (by omega),
        byte_of_halves a (by omega)]
      rfl
  | case3 a b =>
      have small := a.toNat_lt
      have small' := b.toNat_lt
      rw [encodeGroups, looseDecode, looseFrom_first (by omega), looseFrom_second (by omega),
        looseFrom_third (by omega), byte_of_halves a (by omega), byte_of_halves b (by omega)]
      rfl
  | case4 a b c rest ih =>
      rw [encodeGroups, looseDecode_group, ih]
      rfl

/-- The digits up to the last one of a group are no whole text. -/
theorem looseDecode_three (a b c : UInt8) :
    looseDecode [digit (a.toNat / 4), digit (a.toNat % 4 * 16 + b.toNat / 16),
      digit (b.toNat % 16 * 4 + c.toNat / 64)] = none := by
  have small := a.toNat_lt
  have small' := b.toNat_lt
  have small'' := c.toNat_lt
  unfold looseDecode
  rw [looseFrom_first (by omega), looseFrom_second (by omega), looseFrom_third (by omega)]
  rfl

theorem digit_mem_alphabet {n : Nat} (small : n < 64) : digit n ∈ alphabet := by
  rw [← List.isSome_idxOf?]
  change (value (digit n)).isSome
  rw [value_digit small]
  rfl

theorem mem_encodeGroups {bytes : List UInt8} {c : Char} (member : c ∈ encodeGroups bytes) :
    c ∈ '=' :: alphabet := by
  induction bytes using encodeGroups.induct with
  | case1 => cases member
  | case2 a =>
      have small := a.toNat_lt
      simp only [encodeGroups, List.mem_cons, List.not_mem_nil, or_false] at member
      rcases member with rfl | rfl | rfl | rfl
      · exact List.mem_cons_of_mem _ (digit_mem_alphabet (by omega))
      · exact List.mem_cons_of_mem _ (digit_mem_alphabet (by omega))
      · exact List.mem_cons_self
      · exact List.mem_cons_self
  | case3 a b =>
      have small := a.toNat_lt
      have small' := b.toNat_lt
      simp only [encodeGroups, List.mem_cons, List.not_mem_nil, or_false] at member
      rcases member with rfl | rfl | rfl | rfl
      · exact List.mem_cons_of_mem _ (digit_mem_alphabet (by omega))
      · exact List.mem_cons_of_mem _ (digit_mem_alphabet (by omega))
      · exact List.mem_cons_of_mem _ (digit_mem_alphabet (by omega))
      · exact List.mem_cons_self
  | case4 a b c' rest ih =>
      have small := a.toNat_lt
      have small' := b.toNat_lt
      have small'' := c'.toNat_lt
      simp only [encodeGroups, List.mem_cons] at member
      rcases member with rfl | rfl | rfl | rfl | later
      · exact List.mem_cons_of_mem _ (digit_mem_alphabet (by omega))
      · exact List.mem_cons_of_mem _ (digit_mem_alphabet (by omega))
      · exact List.mem_cons_of_mem _ (digit_mem_alphabet (by omega))
      · exact List.mem_cons_of_mem _ (digit_mem_alphabet (by omega))
      · exact ih later

theorem digit_eq_slash_iff {n : Nat} (small : n < 64) : digit n = '/' ↔ n = 63 := by
  constructor
  · intro same
    have read := value_digit small
    rw [same, value_marks.2.1] at read
    exact (Option.some.inj read).symm
  · rintro rfl
    exact value_marks.2.2

/-- Some third byte of a group is a question mark. -/
def QuestionThird (bytes : List UInt8) : Prop := ∃ k, k % 3 = 2 ∧ bytes[k]? = some 0x3f

theorem questionThird_cons_iff (a b c : UInt8) (rest : List UInt8) :
    QuestionThird (a :: b :: c :: rest) ↔ c = 0x3f ∨ QuestionThird rest := by
  constructor
  · rintro ⟨k, third, there⟩
    match k, third with
    | 2, _ => exact .inl (Option.some.inj there)
    | k + 3, third => exact .inr ⟨k, by omega, there⟩
  · rintro (rfl | ⟨k, third, there⟩)
    · exact ⟨2, rfl, rfl⟩
    · exact ⟨k + 3, by omega, there⟩

/-- Of the digits of bytes in ASCII only the last one of a group can be a slash. -/
theorem digit_ne_slash {n : Nat} (small : n < 63) : '/' ≠ digit n := by
  intro same
  have last := (digit_eq_slash_iff (by omega)).mp same.symm
  omega

theorem toNat_eq_question_iff {c : UInt8} (ascii : c < 0x7f) : c.toNat % 64 = 63 ↔ c = 0x3f := by
  have small : c.toNat < 0x7f := ascii
  rw [← UInt8.toNat_inj]
  show c.toNat % 64 = 63 ↔ c.toNat = 63
  omega

/-- A slash is the last digit of a group whose third byte is a question mark, when the bytes are
printable ASCII. The digits before the first slash are then no whole text. -/
theorem slash_encodeGroups {bytes : List UInt8} (printable : ∀ byte ∈ bytes, byte < 0x7f) :
    ('/' ∈ encodeGroups bytes ↔ QuestionThird bytes) ∧
      ('/' ∈ encodeGroups bytes →
        looseDecode ((encodeGroups bytes).takeWhile (· ≠ '/')) = none) := by
  induction bytes using encodeGroups.induct with
  | case1 => exact ⟨by simp [encodeGroups, QuestionThird], by simp [encodeGroups]⟩
  | case2 a =>
      have small : a.toNat < 0x7f := printable a List.mem_cons_self
      have absent : '/' ∉ encodeGroups [a] := by
        simp only [encodeGroups, List.mem_cons, List.not_mem_nil, or_false, not_or]
        exact ⟨digit_ne_slash (by omega), digit_ne_slash (by omega), by decide, by decide⟩
      refine ⟨iff_of_false absent ?_, fun member => absurd member absent⟩
      rintro ⟨k, third, there⟩
      have inside := (List.getElem?_eq_some_iff.mp there).1
      simp only [List.length_cons, List.length_nil] at inside
      omega
  | case3 a b =>
      have small : a.toNat < 0x7f := printable a List.mem_cons_self
      have small' : b.toNat < 0x7f := printable b (List.mem_cons_of_mem _ List.mem_cons_self)
      have absent : '/' ∉ encodeGroups [a, b] := by
        simp only [encodeGroups, List.mem_cons, List.not_mem_nil, or_false, not_or]
        exact ⟨digit_ne_slash (by omega), digit_ne_slash (by omega), digit_ne_slash (by omega),
          by decide⟩
      refine ⟨iff_of_false absent ?_, fun member => absurd member absent⟩
      rintro ⟨k, third, there⟩
      have inside := (List.getElem?_eq_some_iff.mp there).1
      simp only [List.length_cons, List.length_nil] at inside
      omega
  | case4 a b c rest ih =>
      simp only [List.forall_mem_cons] at printable
      obtain ⟨ascii, ascii', ascii'', later⟩ := printable
      obtain ⟨same, broken⟩ := ih later
      have small : a.toNat < 0x7f := ascii
      have small' : b.toNat < 0x7f := ascii'
      have small'' : c.toNat < 0x7f := ascii''
      have first : '/' ≠ digit (a.toNat / 4) := digit_ne_slash (by omega)
      have second : '/' ≠ digit (a.toNat % 4 * 16 + b.toNat / 16) := digit_ne_slash (by omega)
      have third : '/' ≠ digit (b.toNat % 16 * 4 + c.toNat / 64) := digit_ne_slash (by omega)
      have fourth : '/' = digit (c.toNat % 64) ↔ c = 0x3f := by
        rw [eq_comm, digit_eq_slash_iff (by omega), toNat_eq_question_iff ascii'']
      have member : '/' ∈ encodeGroups (a :: b :: c :: rest) ↔ QuestionThird (a :: b :: c :: rest) := by
        simp only [encodeGroups, List.mem_cons]
        rw [questionThird_cons_iff, or_iff_right first, or_iff_right second, or_iff_right third,
          fourth, same]
      refine ⟨member, fun there => ?_⟩
      rw [encodeGroups, List.takeWhile_cons_of_pos (by simpa using first.symm),
        List.takeWhile_cons_of_pos (by simpa using second.symm),
        List.takeWhile_cons_of_pos (by simpa using third.symm)]
      by_cases here : c = 0x3f
      · rw [List.takeWhile_cons_of_neg (by simpa using (fourth.mpr here).symm)]
        exact looseDecode_three a b c
      · rw [List.takeWhile_cons_of_pos (by simpa using fun same => here (fourth.mp same.symm)),
          looseDecode_group, broken (same.mpr (((questionThird_cons_iff a b c rest).mp
            (member.mp there)).resolve_left here))]
        rfl

end Base64
