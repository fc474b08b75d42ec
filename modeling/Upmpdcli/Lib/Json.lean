import Upmpdcli.Lib.Dict

set_option autoImplicit false

/- JSON objects whose values are texts: they are written in ASCII, with escapes for all other
characters, and read back. -/
namespace Json

/-- The digits of a `\u` escape. -/
def hexDigit (n : Nat) : Char := "0123456789abcdef".toList.getD n '0'

def hexValue (c : Char) : Option Nat := "0123456789abcdef".toList.idxOf? c.toLower

/-- The escape of a UTF-16 code unit. -/
def escapeUnit (n : Nat) : List Char :=
  ['\\', 'u', hexDigit (n / 4096 % 16), hexDigit (n / 256 % 16), hexDigit (n / 16 % 16),
    hexDigit (n % 16)]

/-- The characters with an escape of one letter. -/
def shortEscapes : List (Char × Char) :=
  [('"', '"'), ('\\', '\\'), ('\n', 'n'), ('\r', 'r'), ('\t', 't'), (Char.ofNat 0xc, 'f'),
    (Char.ofNat 0x8, 'b')]

def printable (c : Char) : Bool := 0x20 ≤ c.toNat && c.toNat ≤ 0x7e

def escapeChar (c : Char) : List Char :=
  match shortEscapes.lookup c with
  | some letter => ['\\', letter]
  | none =>
      if printable c then [c]
      else if c.toNat < 0x10000 then escapeUnit c.toNat
      else
        escapeUnit (0xd800 + (c.toNat - 0x10000) / 1024) ++
          escapeUnit (0xdc00 + (c.toNat - 0x10000) % 1024)

def dumpString (text : List Char) : List Char := '"' :: (text.flatMap escapeChar ++ ['"'])

def dumpPair (pair : List Char × List Char) : List Char :=
  dumpString pair.1 ++ ':' :: ' ' :: dumpString pair.2

/-- The pairs behind the first one. -/
def dumpMore (pairs : List (List Char × List Char)) : List Char :=
  pairs.flatMap fun pair => ',' :: ' ' :: dumpPair pair

def dumps : List (List Char × List Char) → List Char
  | [] => ['{', '}']
  | pair :: rest => '{' :: (dumpPair pair ++ dumpMore rest ++ ['}'])

/-- What a text is written with: a character, or the code unit of an escape. -/
inductive CodeUnit
  | char (c : Char)
  | code (n : Nat)

def unescape (letter : Char) : Option Char :=
  if letter = '/' then some '/' else (shortEscapes.find? fun entry => entry.2 = letter).map Prod.fst

/-- The units up to the closing quote, and what is behind it. -/
def units : List Char → Option (List CodeUnit × List Char)
  | [] => none
  | '"' :: rest => some ([], rest)
  | '\\' :: 'u' :: a :: b :: c :: d :: rest =>
      match hexValue a, hexValue b, hexValue c, hexValue d with
      | some a, some b, some c, some d =>
          (units rest).map fun read => (.code (a * 4096 + b * 256 + c * 16 + d) :: read.1, read.2)
      | _, _, _, _ => none
  | '\\' :: letter :: rest =>
      match unescape letter with
      | some c => (units rest).map fun read => (.char c :: read.1, read.2)
      | none => none
  | c :: rest =>
      if c.toNat < 0x20 then none else (units rest).map fun read => (.char c :: read.1, read.2)

/-- The characters of the units. `high` is the first half of a pair. A half alone makes no
character. -/
def chars : List CodeUnit → (high : Option Nat) → Option (List Char)
  | [], none => some []
  | .char c :: rest, none => (chars rest none).map (c :: ·)
  | .code n :: rest, none =>
      if 0xd800 ≤ n ∧ n < 0xdc00 then chars rest (some n)
      else if 0xdc00 ≤ n ∧ n < 0xe000 then none
      else (chars rest none).map (Char.ofNat n :: ·)
  | .code n :: rest, some high =>
      if 0xdc00 ≤ n ∧ n < 0xe000 then
        (chars rest none).map (Char.ofNat (0x10000 + (high - 0xd800) * 1024 + (n - 0xdc00)) :: ·)
      else none
  | _, some _ => none

/-- A text behind its opening quote. -/
def scanString (text : List Char) : Option (List Char × List Char) :=
  (units text).bind fun read => (chars read.1 none).map fun found => (found, read.2)

def isSpace (c : Char) : Bool := c = ' ' || c = '\t' || c = '\n' || c = '\r'

def skip (text : List Char) : List Char := text.dropWhile isSpace

/-- A key with its value, and the blanks behind them. -/
def scanPair : List Char → Option ((List Char × List Char) × List Char)
  | '"' :: rest =>
      (scanString rest).bind fun (key, rest) =>
        match skip rest with
        | ':' :: rest =>
            match skip rest with
            | '"' :: rest => (scanString rest).map fun (value, rest) => ((key, value), skip rest)
            | _ => none
        | _ => none
  | _ => none

/-- The pairs up to the closing brace. There are fewer than the text has characters. -/
def scanPairs : (fuel : Nat) → List Char → Option (List (List Char × List Char) × List Char)
  | 0, _ => none
  | fuel + 1, text =>
      (scanPair text).bind fun (pair, rest) =>
        match rest with
        | '}' :: rest => some ([pair], rest)
        | ',' :: rest => (scanPairs fuel (skip rest)).map fun (pairs, rest) => (pair :: pairs, rest)
        | _ => none

/-- An object with nothing behind it. The last one of several values of a key counts. -/
def loads (text : List Char) : Option (List (List Char × List Char)) :=
  match skip text with
  | '{' :: rest =>
      let read :=
        match skip rest with
        | '}' :: rest => some ([], rest)
        | rest => scanPairs rest.length rest
      read.bind fun (pairs, rest) =>
        if skip rest = [] then
          some (pairs.foldl (fun found pair => Dict.set found pair.1 pair.2) [])
        else none
  | _ => none

section RoundTrip

variable {c : Char} {rest : List Char}

theorem hexValue_hexDigit {n : Nat} (small : n < 16) : hexValue (hexDigit n) = some n := by
  revert n
  decide

/-- The unit or units as which a character is written. -/
def unitsOf (c : Char) : List CodeUnit :=
  if (shortEscapes.lookup c).isSome || printable c then [.char c]
  else if c.toNat < 0x10000 then [.code c.toNat]
  else [.code (0xd800 + (c.toNat - 0x10000) / 1024), .code (0xdc00 + (c.toNat - 0x10000) % 1024)]

theorem units_escapeUnit {n : Nat} (small : n < 0x10000) (rest : List Char) :
    units (escapeUnit n ++ rest) =
      (units rest).map fun read => (.code n :: read.1, read.2) := by
  have digits : n / 4096 % 16 * 4096 + n / 256 % 16 * 256 + n / 16 % 16 * 16 + n % 16 = n := by
    omega
  rw [escapeUnit]
  simp only [List.cons_append, List.nil_append, units]
  rw [hexValue_hexDigit (Nat.mod_lt _ (by decide)), hexValue_hexDigit (Nat.mod_lt _ (by decide)),
    hexValue_hexDigit (Nat.mod_lt _ (by decide)), hexValue_hexDigit (Nat.mod_lt _ (by decide))]
  dsimp only
  rw [digits]

theorem units_short (rest : List Char) :
    ∀ entry ∈ shortEscapes, units ('\\' :: entry.2 :: rest) =
      (units rest).map fun read => (.char entry.1 :: read.1, read.2) := by
  simp only [shortEscapes, List.forall_mem_cons]
  exact ⟨rfl, rfl, rfl, rfl, rfl, rfl, rfl, List.forall_mem_nil _⟩

theorem units_printable (plain : printable c = true) (unescaped : shortEscapes.lookup c = none)
    (rest : List Char) :
    units (c :: rest) = (units rest).map fun read => (.char c :: read.1, read.2) := by
  have no_quote : c ≠ '"' := by
    rintro rfl
    exact absurd unescaped (by decide)
  have no_backslash : c ≠ '\\' := by
    rintro rfl
    exact absurd unescaped (by decide)
  have no_control : ¬ c.toNat < 0x20 := by
    unfold printable at plain
    simp only [Bool.and_eq_true, decide_eq_true_eq] at plain
    omega
  rw [units, if_neg no_control]
  · exact no_quote
  · exact fun _ _ _ _ _ same _ => no_backslash same
  · exact fun _ _ same _ => no_backslash same

theorem units_escapeChar (c : Char) (rest : List Char) :
    units (escapeChar c ++ rest) =
      (units rest).map fun read => (unitsOf c ++ read.1, read.2) := by
  unfold escapeChar unitsOf
  cases short : shortEscapes.lookup c with
  | some letter => exact units_short rest (c, letter) (Dict.mem_of_lookup short)
  | none =>
      simp only [Option.isSome_none, Bool.false_or]
      by_cases plain : printable c = true
      · rw [if_pos plain, if_pos plain]
        exact units_printable plain short rest
      · rw [if_neg plain, if_neg plain]
        by_cases small : c.toNat < 0x10000
        · rw [if_pos small, if_pos small, units_escapeUnit small]
          rfl
        · have bound : c.toNat < 0x110000 := by
            rcases c.valid with low | high
            · exact Nat.lt_trans low (by decide)
            · exact high.2
          rw [if_neg small, if_neg small, List.append_assoc, units_escapeUnit (by omega),
            units_escapeUnit (by omega), Option.map_map]
          rfl

theorem units_dumped (text rest : List Char) :
    units (text.flatMap escapeChar ++ '"' :: rest) = some (text.flatMap unitsOf, rest) := by
  induction text with
  | nil => rfl
  | cons c later ih =>
      rw [List.flatMap_cons, List.append_assoc, units_escapeChar, ih]
      rfl

theorem chars_unitsOf (c : Char) (behind : List CodeUnit) :
    chars (unitsOf c ++ behind) none = (chars behind none).map (c :: ·) := by
  unfold unitsOf
  split
  · rfl
  · have scalar : c.toNat < 0xd800 ∨ 0xe000 ≤ c.toNat ∧ c.toNat < 0x110000 := by
      rcases c.valid with low | high
      · exact .inl low
      · exact .inr ⟨Nat.succ_le_of_lt high.1, high.2⟩
    split
    · simp only [List.cons_append, List.nil_append, chars]
      rw [if_neg (by omega), if_neg (by omega), Char.ofNat_toNat]
    · simp only [List.cons_append, List.nil_append, chars]
      rw [if_pos (by omega), if_pos (by omega)]
      have whole : 0x10000 + (0xd800 + (c.toNat - 0x10000) / 1024 - 0xd800) * 1024 +
          (0xdc00 + (c.toNat - 0x10000) % 1024 - 0xdc00) = c.toNat := by
        omega
      rw [whole, Char.ofNat_toNat]

theorem chars_dumped (text : List Char) : chars (text.flatMap unitsOf) none = some text := by
  induction text with
  | nil => rfl
  | cons c later ih =>
      rw [List.flatMap_cons, chars_unitsOf, ih]
      rfl

/-- A text is read back up to its closing quote. -/
theorem scanString_dumped (text rest : List Char) :
    scanString (text.flatMap escapeChar ++ '"' :: rest) = some (text, rest) := by
  rw [scanString, units_dumped, Option.bind_some, chars_dumped]
  rfl

theorem skip_cons (solid : isSpace c = false) (rest : List Char) : skip (c :: rest) = c :: rest :=
  List.dropWhile_cons_of_neg (by simp [solid])

/-- A pair is read back when no blank is behind it. -/
theorem scanPair_dumped (pair : List Char × List Char) :
    scanPair (dumpPair pair ++ rest) = some (pair, skip rest) := by
  obtain ⟨key, value⟩ := pair
  have key_read := scanString_dumped key (':' :: ' ' :: '"' :: (value.flatMap escapeChar ++ '"' :: rest))
  have value_read := scanString_dumped value rest
  have text : dumpPair (key, value) ++ rest = '"' :: (key.flatMap escapeChar ++
      '"' :: ':' :: ' ' :: '"' :: (value.flatMap escapeChar ++ '"' :: rest)) := by
    simp [dumpPair, dumpString]
  rw [text, scanPair, key_read, Option.bind_some]
  show (scanString (value.flatMap escapeChar ++ '"' :: rest)).map
    (fun read => ((key, read.1), skip read.2)) = _
  rw [value_read]
  rfl

theorem scanPairs_dumped (pair : List Char × List Char) (more : List (List Char × List Char))
    {fuel : Nat} (enough : more.length < fuel) :
    scanPairs fuel (dumpPair pair ++ (dumpMore more ++ '}' :: rest)) = some (pair :: more, rest) := by
  induction more generalizing pair fuel with
  | nil =>
      obtain ⟨fuel, rfl⟩ := Nat.exists_eq_succ_of_ne_zero (Nat.ne_of_gt enough)
      rw [scanPairs, scanPair_dumped, Option.bind_some]
      rfl
  | cons next more ih =>
      obtain ⟨fuel, rfl⟩ := Nat.exists_eq_succ_of_ne_zero (Nat.ne_of_gt (Nat.zero_lt_of_lt enough))
      rw [scanPairs, scanPair_dumped, Option.bind_some]
      have behind : skip (dumpMore (next :: more) ++ '}' :: rest) =
          ',' :: ' ' :: (dumpPair next ++ (dumpMore more ++ '}' :: rest)) := by
        rw [dumpMore, List.flatMap_cons, List.append_assoc, List.cons_append, List.cons_append,
          skip_cons (by decide)]
        rfl
      have first : skip (' ' :: (dumpPair next ++ (dumpMore more ++ '}' :: rest))) =
          dumpPair next ++ (dumpMore more ++ '}' :: rest) := rfl
      rw [behind]
      show (scanPairs fuel (skip (' ' :: (dumpPair next ++ (dumpMore more ++ '}' :: rest))))).map
        (fun read => (pair :: read.1, read.2)) = _
      rw [first, ih next (Nat.lt_of_succ_lt_succ enough)]
      rfl

theorem length_le_dumpMore (more : List (List Char × List Char)) :
    more.length ≤ (dumpMore more).length := by
  induction more with
  | nil => exact Nat.zero_le _
  | cons pair rest ih =>
      rw [dumpMore, List.flatMap_cons, List.length_append, List.length_cons]
      have later : rest.length ≤ (rest.flatMap fun pair => ',' :: ' ' :: dumpPair pair).length := ih
      simp only [List.length_cons]
      omega

theorem foldl_set (pairs found : List (List Char × List Char))
    (distinct : ((found ++ pairs).map Prod.fst).Nodup) :
    pairs.foldl (fun found pair => Dict.set found pair.1 pair.2) found = found ++ pairs := by
  induction pairs generalizing found with
  | nil => rw [List.foldl_nil, List.append_nil]
  | cons pair rest ih =>
      have absent : pair.1 ∉ found.map Prod.fst := by
        rw [List.map_append, List.nodup_append] at distinct
        intro member
        exact distinct.2.2 _ member _ (List.mem_map_of_mem List.mem_cons_self) rfl
      rw [List.foldl_cons, Dict.set_of_not_mem absent, ih, List.append_assoc, List.singleton_append]
      rwa [List.append_assoc, List.singleton_append]

/-- An object with distinct keys is read back. -/
theorem loads_dumps {pairs : List (List Char × List Char)}
    (distinct : (pairs.map Prod.fst).Nodup) : loads (dumps pairs) = some pairs := by
  have same := foldl_set pairs [] distinct
  cases pairs with
  | nil => rfl
  | cons pair more =>
      have quote : dumpPair pair ++ (dumpMore more ++ ['}']) =
          '"' :: (dumpPair pair ++ (dumpMore more ++ ['}'])).tail := rfl
      have length := length_le_dumpMore more
      have read : scanPairs (dumpPair pair ++ (dumpMore more ++ ['}'])).length
          (dumpPair pair ++ (dumpMore more ++ ['}'])) = some (pair :: more, []) := by
        refine scanPairs_dumped pair more ?_
        simp only [List.length_append, List.length_singleton]
        omega
      rw [loads, dumps, List.append_assoc, skip_cons (by decide)]
      rw [quote] at read ⊢
      show (scanPairs _ ('"' :: (dumpPair pair ++ (dumpMore more ++ ['}'])).tail)).bind _ = _
      rw [read, Option.bind_some]
      exact (if_pos rfl).trans (congrArg some same)

/-- What is written is printable ASCII. -/
theorem printable_escapeUnit (n : Nat) : ∀ c ∈ escapeUnit n, printable c = true := by
  have digit (n : Nat) : printable (hexDigit (n % 16)) = true := by
    have small := Nat.mod_lt n (show 16 > 0 by decide)
    revert small
    generalize n % 16 = k
    revert k
    decide
  simp only [escapeUnit, List.forall_mem_cons]
  exact ⟨rfl, rfl, digit _, digit _, digit _, digit _, List.forall_mem_nil _⟩

theorem printable_escapeChar (c : Char) : ∀ e ∈ escapeChar c, printable e = true := by
  unfold escapeChar
  cases short : shortEscapes.lookup c with
  | some letter =>
      have letters : ∀ entry ∈ shortEscapes, printable entry.2 = true := by decide
      simp only [List.forall_mem_cons]
      exact ⟨rfl, letters _ (Dict.mem_of_lookup short), List.forall_mem_nil _⟩
  | none =>
      dsimp only
      split
      · rename_i plain
        simpa using plain
      · split
        · exact printable_escapeUnit _
        · intro e member
          rcases List.mem_append.mp member with first | second
          · exact printable_escapeUnit _ e first
          · exact printable_escapeUnit _ e second

theorem printable_dumpString (text : List Char) : ∀ c ∈ dumpString text, printable c = true := by
  intro c member
  rcases List.mem_cons.mp member with rfl | member
  · rfl
  · rcases List.mem_append.mp member with inside | last
    · obtain ⟨of, -, inside⟩ := List.mem_flatMap.mp inside
      exact printable_escapeChar of c inside
    · rw [List.mem_singleton.mp last]
      rfl

theorem printable_dumpPair (pair : List Char × List Char) :
    ∀ c ∈ dumpPair pair, printable c = true := by
  intro c member
  rcases List.mem_append.mp member with key | value
  · exact printable_dumpString _ c key
  · rcases List.mem_cons.mp value with rfl | value
    · rfl
    · rcases List.mem_cons.mp value with rfl | value
      · rfl
      · exact printable_dumpString _ c value

theorem printable_dumps (pairs : List (List Char × List Char)) :
    ∀ c ∈ dumps pairs, printable c = true := by
  cases pairs with
  | nil => exact List.forall_mem_cons.mpr ⟨rfl, List.forall_mem_singleton.mpr rfl⟩
  | cons pair more =>
      intro c member
      rcases List.mem_cons.mp member with rfl | member
      · rfl
      rcases List.mem_append.mp member with member | last
      · rcases List.mem_append.mp member with first | later
        · exact printable_dumpPair pair c first
        · obtain ⟨other, -, inside⟩ := List.mem_flatMap.mp later
          rcases List.mem_cons.mp inside with rfl | inside
          · rfl
          rcases List.mem_cons.mp inside with rfl | inside
          · rfl
          exact printable_dumpPair other c inside
      · rw [List.mem_singleton.mp last]
        rfl

end RoundTrip

end Json
