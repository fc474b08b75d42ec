import Mathlib.Data.Nat.Notation

set_option autoImplicit false

/- Numbers printed in base 10, as bytes. -/
namespace Decimal

def digit (c : UInt8) : Bool := 48 ≤ c && c ≤ 57

def print (n : Nat) : List UInt8 := (Nat.toDigits 10 n).map fun c => c.toNat.toUInt8

/-- The number which these digits continue. -/
def value (digits : List UInt8) (start : Nat) : Nat :=
  digits.foldl (fun n c => 10 * n + (c.toNat - 48)) start

theorem print_ne_nil (n : Nat) : print n ≠ [] := by
  unfold print
  rw [ne_eq, List.map_eq_nil_iff]
  exact Nat.toDigits_ne_nil

theorem toNat_of_isDigit {c : Char} (isDigit : c.isDigit = true) :
    c.toNat.toUInt8.toNat = c.toNat ∧ 48 ≤ c.toNat ∧ c.toNat ≤ 57 := by
  have bounds : 48 ≤ c.toNat ∧ c.toNat ≤ 57 := by
    simpa [Char.isDigit, UInt32.le_iff_toNat_le] using isDigit
  refine ⟨?_, bounds⟩
  rw [Nat.toUInt8_eq, UInt8.toNat_ofNat']
  omega

theorem digit_of_mem_print {n : Nat} {c : UInt8} (member : c ∈ print n) : digit c = true := by
  obtain ⟨char, there, rfl⟩ := List.mem_map.mp member
  have bounds := toNat_of_isDigit (Nat.isDigit_of_mem_toDigits (by decide) (by decide) there)
  simp only [digit, Bool.and_eq_true, decide_eq_true_eq, UInt8.le_iff_toNat_le, bounds.1]
  exact bounds.2

theorem value_print (n : Nat) : value (print n) 0 = n := by
  have same (chars : List Char) (all : ∀ c ∈ chars, c.isDigit = true) (start : Nat) :
      value (chars.map fun c => c.toNat.toUInt8) start = Nat.ofDigitChars 10 chars start := by
    induction chars generalizing start with
    | nil => simp [value]
    | cons c chars ih =>
        rw [List.forall_mem_cons] at all
        rw [List.map_cons, Nat.ofDigitChars_cons, ← ih all.2]
        simp [value, (toNat_of_isDigit all.1).1]
  unfold print
  rw [same _ (fun c member => Nat.isDigit_of_mem_toDigits (by decide) (by decide) member),
    Nat.ofDigitChars_ten_toDigits]

end Decimal
