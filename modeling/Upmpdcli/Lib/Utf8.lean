import Mathlib.Data.List.Basic

set_option autoImplicit false

/- Decoding bytes which may be malformed UTF-8. -/
namespace Utf8

/-- A sequence which has begun: how many bytes are missing, the bounds of the next one, and the
bits read so far. -/
structure Pending where
  missing : Nat
  low : UInt8 := 0x80
  high : UInt8 := 0xbf
  bits : Nat

/-- The sequence which a byte begins, if it begins one of several bytes. -/
def lead (b : UInt8) : Option Pending :=
  if 0xc2 ≤ b ∧ b ≤ 0xdf then some { missing := 1, bits := b.toNat - 0xc0 }
  else if b = 0xe0 then some { missing := 2, low := 0xa0, bits := 0 }
  else if b = 0xed then some { missing := 2, high := 0x9f, bits := 0xd }
  else if 0xe1 ≤ b ∧ b ≤ 0xef then some { missing := 2, bits := b.toNat - 0xe0 }
  else if b = 0xf0 then some { missing := 3, low := 0x90, bits := 0 }
  else if 0xf1 ≤ b ∧ b ≤ 0xf3 then some { missing := 3, bits := b.toNat - 0xf0 }
  else if b = 0xf4 then some { missing := 3, high := 0x8f, bits := 4 }
  else none

/-- The characters, with `none` for each longest part of a sequence which goes wrong. -/
def decodeFrom : List UInt8 → Option Pending → List (Option Char)
  | [], none => []
  | [], some _ => [none]
  | b :: rest, none =>
      if b < 0x80 then some (Char.ofNat b.toNat) :: decodeFrom rest none
      else
        match lead b with
        | none => none :: decodeFrom rest none
        | some pending => decodeFrom rest (some pending)
  | b :: rest, some pending =>
      if pending.low ≤ b ∧ b ≤ pending.high then
        let bits := 64 * pending.bits + (b.toNat - 0x80)
        if pending.missing ≤ 1 then some (Char.ofNat bits) :: decodeFrom rest none
        else decodeFrom rest (some { missing := pending.missing - 1, bits })
      -- the byte does not belong to the sequence, and is looked at again
      else if b < 0x80 then none :: some (Char.ofNat b.toNat) :: decodeFrom rest none
      else
        match lead b with
        | none => none :: none :: decodeFrom rest none
        | some pending => none :: decodeFrom rest (some pending)

def decode (bytes : List UInt8) : List (Option Char) := decodeFrom bytes none

/-- With `errors='replace'`. -/
def decodeReplace (bytes : List UInt8) : List Char :=
  (decode bytes).map fun c => c.getD (Char.ofNat 0xfffd)

/-- With `errors='ignore'`. -/
def decodeIgnore (bytes : List UInt8) : List Char := (decode bytes).filterMap id

def valid (bytes : List UInt8) : Bool := (decode bytes).all Option.isSome

def encode (text : List Char) : List UInt8 := text.flatMap String.utf8EncodeChar

/-- Without errors, which make the decoding fail. -/
def decodeStrict (bytes : List UInt8) : Option (List Char) :=
  if valid bytes then some (decodeIgnore bytes) else none

/-- A character of ASCII is its own byte. -/
theorem encode_ascii {text : List Char} (ascii : ∀ c ∈ text, c.toNat < 0x80) :
    encode text = text.map fun c => UInt8.ofNat c.toNat := by
  induction text with
  | nil => rfl
  | cons c rest ih =>
      simp only [List.forall_mem_cons] at ascii
      obtain ⟨first, later⟩ := ascii
      have own : String.utf8EncodeChar c = [UInt8.ofNat c.toNat] := if_pos (Nat.le_of_lt_succ first)
      rw [encode, List.flatMap_cons, own, List.map_cons]
      exact congrArg _ (ih later)

theorem toNat_byte {n : Nat} (small : n < 256) : (UInt8.ofNat n).toNat = n :=
  Nat.mod_eq_of_lt small

theorem lead_byte {n : Nat} (small : n < 256) :
    lead (UInt8.ofNat n) =
      if 0xc2 ≤ n ∧ n ≤ 0xdf then some { missing := 1, bits := n - 0xc0 }
      else if n = 0xe0 then some { missing := 2, low := 0xa0, bits := 0 }
      else if n = 0xed then some { missing := 2, high := 0x9f, bits := 0xd }
      else if 0xe1 ≤ n ∧ n ≤ 0xef then some { missing := 2, bits := n - 0xe0 }
      else if n = 0xf0 then some { missing := 3, low := 0x90, bits := 0 }
      else if 0xf1 ≤ n ∧ n ≤ 0xf3 then some { missing := 3, bits := n - 0xf0 }
      else if n = 0xf4 then some { missing := 3, high := 0x8f, bits := 4 }
      else none := by
  unfold lead
  simp only [UInt8.le_iff_toNat_le, ← UInt8.toNat_inj, toNat_byte small, UInt8.reduceToNat]

/-- A byte of several begins a sequence. -/
theorem decodeFrom_lead {n : Nat} (small : n < 256) (wide : 0x80 ≤ n) {pending : Pending}
    (begins : lead (UInt8.ofNat n) = some pending) (rest : List UInt8) :
    decodeFrom (UInt8.ofNat n :: rest) none = decodeFrom rest (some pending) := by
  have above : ¬ UInt8.ofNat n < 0x80 := by
    rw [UInt8.lt_iff_toNat_lt, toNat_byte small]
    show ¬ n < 0x80
    omega
  rw [decodeFrom, if_neg above, begins]

theorem decodeFrom_next {n : Nat} (small : n < 256) {pending : Pending}
    (low : pending.low.toNat ≤ n) (high : n ≤ pending.high.toNat) (rest : List UInt8) :
    decodeFrom (UInt8.ofNat n :: rest) (some pending) =
      if pending.missing ≤ 1 then
        some (Char.ofNat (64 * pending.bits + (n - 0x80))) :: decodeFrom rest none
      else
        decodeFrom rest
          (some { missing := pending.missing - 1, bits := 64 * pending.bits + (n - 0x80) }) := by
  have within : pending.low ≤ UInt8.ofNat n ∧ UInt8.ofNat n ≤ pending.high := by
    rw [UInt8.le_iff_toNat_le, UInt8.le_iff_toNat_le, toNat_byte small]
    exact ⟨low, high⟩
  rw [decodeFrom, if_pos within, toNat_byte small]

/-- The bytes in the middle of a sequence and at its end. -/
theorem decodeFrom_middle {n missing bits : Nat} {low high : UInt8} (small : n < 0x40)
    (above : low.toNat ≤ n + 0x80) (below : n + 0x80 ≤ high.toNat) (rest : List UInt8) :
    decodeFrom (UInt8.ofNat (n + 0x80) :: rest) (some ⟨missing + 2, low, high, bits⟩) =
      decodeFrom rest (some { missing := missing + 1, bits := 64 * bits + n }) := by
  rw [decodeFrom_next (by omega) above below, if_neg (by simp), Nat.add_sub_cancel]
  rfl

theorem decodeFrom_last {n bits : Nat} {low high : UInt8} (small : n < 0x40)
    (above : low.toNat ≤ n + 0x80) (below : n + 0x80 ≤ high.toNat) (rest : List UInt8) :
    decodeFrom (UInt8.ofNat (n + 0x80) :: rest) (some ⟨1, low, high, bits⟩) =
      some (Char.ofNat (64 * bits + n)) :: decodeFrom rest none := by
  rw [decodeFrom_next (by omega) above below, if_pos (Nat.le_refl 1), Nat.add_sub_cancel]

/-- A character is read back from its bytes. -/
theorem decodeFrom_char (c : Char) (rest : List UInt8) :
    decodeFrom (String.utf8EncodeChar c ++ rest) none = some c :: decodeFrom rest none := by
  have scalar : c.val.toNat < 0xd800 ∨ 0xdfff < c.val.toNat ∧ c.val.toNat < 0x110000 := c.valid
  have self {n : Nat} (same : n = c.val.toNat) : Char.ofNat n = c := by
    rw [same]
    exact Char.ofNat_toNat c
  unfold String.utf8EncodeChar
  dsimp only
  generalize c.val.toNat = v at scalar self
  by_cases one : v ≤ 0x7f
  · have plain : UInt8.ofNat v < 0x80 := by
      rw [UInt8.lt_iff_toNat_lt, toNat_byte (by omega)]
      show v < 0x80
      omega
    rw [if_pos one, List.cons_append, List.nil_append, decodeFrom, if_pos plain,
      toNat_byte (by omega), self rfl]
  rw [if_neg one]
  by_cases two : v ≤ 0x7ff
  · rw [if_pos two, List.cons_append, List.cons_append, List.nil_append]
    have begins : lead (UInt8.ofNat (v / 64 % 0x20 + 0xc0)) =
        some { missing := 1, bits := v / 64 % 0x20 } := by
      rw [lead_byte (by omega), if_pos (by omega), Nat.add_sub_cancel]
    have last : v % 0x40 < 0x40 := Nat.mod_lt _ (by decide)
    rw [decodeFrom_lead (by omega) (by omega) begins,
      decodeFrom_last last (Nat.le_add_left _ _) (by show _ ≤ 0xbf; omega), self (by omega)]
  rw [if_neg two]
  have last : v % 0x40 < 0x40 := Nat.mod_lt _ (by decide)
  have middle : v / 64 % 0x40 < 0x40 := Nat.mod_lt _ (by decide)
  by_cases three : v ≤ 0xffff
  · rw [if_pos three]
    simp only [List.cons_append, List.nil_append]
    obtain ⟨low, high, begins, above, below⟩ : ∃ low high : UInt8,
        lead (UInt8.ofNat (v / 4096 % 0x10 + 0xe0)) = some ⟨2, low, high, v / 4096 % 0x10⟩ ∧
          low.toNat ≤ v / 64 % 0x40 + 0x80 ∧ v / 64 % 0x40 + 0x80 ≤ high.toNat := by
      rw [lead_byte (by omega), if_neg (by omega)]
      by_cases first : v / 4096 % 0x10 = 0
      · rw [first]
        exact ⟨0xa0, 0xbf, rfl, by show 0xa0 ≤ _; omega, by show _ ≤ 0xbf; omega⟩
      · by_cases surrogate : v / 4096 % 0x10 = 0xd
        · rw [surrogate]
          exact ⟨0x80, 0x9f, rfl, by show 0x80 ≤ _; omega, by show _ ≤ 0x9f; omega⟩
        · rw [if_neg (by omega), if_neg (by omega), if_pos (by omega), Nat.add_sub_cancel]
          exact ⟨0x80, 0xbf, rfl, by show 0x80 ≤ _; omega, by show _ ≤ 0xbf; omega⟩
    rw [decodeFrom_lead (by omega) (by omega) begins, decodeFrom_middle middle above below,
      decodeFrom_last last (Nat.le_add_left _ _) (by show _ ≤ 0xbf; omega), self (by omega)]
  · rw [if_neg three]
    simp only [List.cons_append, List.nil_append]
    have second : v / 4096 % 0x40 < 0x40 := Nat.mod_lt _ (by decide)
    obtain ⟨low, high, begins, above, below⟩ : ∃ low high : UInt8,
        lead (UInt8.ofNat (v / 262144 % 0x08 + 0xf0)) = some ⟨3, low, high, v / 262144 % 0x08⟩ ∧
          low.toNat ≤ v / 4096 % 0x40 + 0x80 ∧ v / 4096 % 0x40 + 0x80 ≤ high.toNat := by
      rw [lead_byte (by omega), if_neg (by omega), if_neg (by omega), if_neg (by omega),
        if_neg (by omega)]
      by_cases first : v / 262144 % 0x08 = 0
      · rw [first]
        exact ⟨0x90, 0xbf, rfl, by show 0x90 ≤ _; omega, by show _ ≤ 0xbf; omega⟩
      · by_cases highest : v / 262144 % 0x08 = 4
        · rw [highest]
          exact ⟨0x80, 0x8f, rfl, by show 0x80 ≤ _; omega, by show _ ≤ 0x8f; omega⟩
        · rw [if_neg (by omega), if_pos (by omega), Nat.add_sub_cancel]
          exact ⟨0x80, 0xbf, rfl, by show 0x80 ≤ _; omega, by show _ ≤ 0xbf; omega⟩
    rw [decodeFrom_lead (by omega) (by omega) begins, decodeFrom_middle second above below,
      decodeFrom_middle middle (Nat.le_add_left _ _) (by show _ ≤ 0xbf; omega),
      decodeFrom_last last (Nat.le_add_left _ _) (by show _ ≤ 0xbf; omega), self (by omega)]

theorem decode_encode (text : List Char) : decode (encode text) = text.map some := by
  unfold decode encode
  induction text with
  | nil => rfl
  | cons c rest ih => rw [List.flatMap_cons, decodeFrom_char, ih, List.map_cons]

theorem decodeStrict_encode (text : List Char) : decodeStrict (encode text) = some text := by
  have all : valid (encode text) = true := by
    rw [valid, decode_encode, List.all_map]
    exact List.all_eq_true.mpr fun _ _ => rfl
  rw [decodeStrict, if_pos all, decodeIgnore, decode_encode, List.filterMap_map]
  exact congrArg some List.filterMap_some

end Utf8
