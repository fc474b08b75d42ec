import Mathlib.Data.Int.Basic

set_option autoImplicit false

/- The `int` of C. There is no result where the language has none: when it is out of the range of
the type, and for a division by zero. -/
namespace CInt

def intMax : Nat := 2147483647

def InRange (x : Int) : Prop := -(intMax : Int) - 1 ≤ x ∧ x ≤ intMax

instance (x : Int) : Decidable (InRange x) := inferInstanceAs (Decidable (_ ∧ _))

/-- The result of an operation whose exact value is known. -/
def check (x : Int) : Option Int := if InRange x then some x else none

def add (a b : Int) : Option Int := check (a + b)

def sub (a b : Int) : Option Int := check (a - b)

def mul (a b : Int) : Option Int := check (a * b)

/-- The quotient is cut off towards zero. -/
def div (a b : Int) : Option Int := if b = 0 then none else check (a.tdiv b)

/-- The conversion to an unsigned type with so many values. -/
def toUnsigned (size : Nat) (x : Int) : Nat := (x % (size : Int)).toNat

/-- The conversion of an unsigned value, which keeps its last 32 bits. -/
def ofUnsigned (n : Nat) : Int := ((n : Int) + intMax + 1) % 4294967296 - intMax - 1

theorem check_eq_some {x y : Int} : check x = some y ↔ InRange x ∧ y = x := by
  unfold check
  split
  · rename_i inside
    rw [Option.some.injEq, eq_comm, and_iff_right inside]
  · rename_i outside
    exact iff_of_false nofun fun both => outside both.1

theorem div_eq_some {a b y : Int} :
    div a b = some y ↔ b ≠ 0 ∧ InRange (a.tdiv b) ∧ y = a.tdiv b := by
  unfold div
  split
  · rename_i zero
    exact iff_of_false nofun fun all => all.1 zero
  · rename_i some_divisor
    rw [check_eq_some, ne_eq, and_iff_right some_divisor]

theorem inRange_natCast {n : Nat} : InRange (n : Int) ↔ n ≤ intMax := by
  unfold InRange
  omega

theorem check_natCast {n : Nat} (fits : n ≤ intMax) : check (n : Int) = some (n : Int) :=
  check_eq_some.mpr ⟨inRange_natCast.mpr fits, rfl⟩

section Naturals

variable {a b : Nat}

theorem add_natCast (fits : a + b ≤ intMax) : add a b = some ((a + b : Nat) : Int) :=
  check_natCast fits

theorem sub_natCast (less : b ≤ a) (fits : a ≤ intMax) : sub a b = some ((a - b : Nat) : Int) := by
  rw [sub, ← Int.ofNat_sub less]
  exact check_natCast (by omega)

theorem mul_natCast (fits : a * b ≤ intMax) : mul a b = some ((a * b : Nat) : Int) := by
  rw [mul, ← Int.natCast_mul]
  exact check_natCast fits

theorem div_natCast (some_divisor : b ≠ 0) (fits : a / b ≤ intMax) :
    div a b = some ((a / b : Nat) : Int) := by
  rw [div, if_neg (by omega), ← Int.ofNat_tdiv]
  exact check_natCast fits

theorem le_of_add {y : Int} (added : add a b = some y) : a + b ≤ intMax ∧ y = (a + b : Nat) := by
  obtain ⟨inside, same⟩ := check_eq_some.mp added
  exact ⟨inRange_natCast.mp inside, same⟩

theorem le_of_mul {y : Int} (multiplied : mul a b = some y) :
    a * b ≤ intMax ∧ y = (a * b : Nat) := by
  rw [mul, ← Int.natCast_mul] at multiplied
  obtain ⟨inside, same⟩ := check_eq_some.mp multiplied
  exact ⟨inRange_natCast.mp inside, same⟩

theorem le_of_div {y : Int} (divided : div a b = some y) :
    b ≠ 0 ∧ a / b ≤ intMax ∧ y = (a / b : Nat) := by
  obtain ⟨some_divisor, inside, same⟩ := div_eq_some.mp divided
  rw [← Int.ofNat_tdiv] at inside same
  exact ⟨by omega, inRange_natCast.mp inside, same⟩

theorem toUnsigned_natCast {size : Nat} (fits : a < size) : toUnsigned size a = a := by
  unfold toUnsigned
  rw [← Int.natCast_mod, Int.toNat_natCast, Nat.mod_eq_of_lt fits]

theorem ofUnsigned_of_le (fits : a ≤ intMax) : ofUnsigned a = a := by
  unfold ofUnsigned
  unfold intMax at fits ⊢
  omega

end Naturals

end CInt
