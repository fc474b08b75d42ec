import Upmpdcli.Lib.Text

set_option autoImplicit false

/- `html.escape` and `html.unescape`. -/
namespace Html

/-- The tables of `html`: the names of characters, with the semicolon where there is one, and what
stands for a number. -/
structure References where
  names : List Char → Option (List Char)
  number : Nat → List Char
  amp : names "amp;".toList = some ['&']
  lt : names "lt;".toList = some ['<']
  gt : names "gt;".toList = some ['>']
  quot : names "quot;".toList = some ['"']
  apos : number 0x27 = ['\'']

def escapeChar (c : Char) : List Char :=
  if c = '&' then "&amp;".toList
  else if c = '<' then "&lt;".toList
  else if c = '>' then "&gt;".toList
  else if c = '"' then "&quot;".toList
  else if c = '\'' then "&#x27;".toList
  else [c]

/-- `html.escape(text, quote=True)`. -/
def escape (text : List Char) : List Char := text.flatMap escapeChar

def isNameChar (c : Char) : Bool := ¬ ['\t', '\n', '\x0c', ' ', '<', '&', '#', ';'].contains c

def hexDigit (c : Char) : Option Nat :=
  if c.isDigit then some (c.toNat - 0x30)
  else if 'a' ≤ c ∧ c ≤ 'f' then some (c.toNat - 0x57)
  else if 'A' ≤ c ∧ c ≤ 'F' then some (c.toNat - 0x37)
  else none

/-- The semicolon at the end of a reference, which can be left out. -/
def semicolon (text : List Char) : List Char := if text.head? = some ';' then [';'] else []

variable (refs : References)

/-- A name, or the longest beginning of it which is one. -/
def named (name : List Char) : List Char :=
  match refs.names name with
  | some text => text
  | none =>
      let shorter := (List.range name.length).reverse.filter (2 ≤ ·)
      match shorter.findSome? fun x => (refs.names (name.take x)).map (· ++ name.drop x) with
      | some text => text
      | none => '&' :: name

/-- What a reference behind an ampersand stands for, and its length. -/
def reference : List Char → Option (List Char × Nat)
  | '#' :: rest =>
      let digits := rest.takeWhile Char.isDigit
      let hexDigits := rest.tail.takeWhile fun c => (hexDigit c).isSome
      if digits ≠ [] then
        some (refs.number (Nat.ofDigitChars 10 digits 0),
          1 + digits.length + (semicolon (rest.drop digits.length)).length)
      else if (rest.head? = some 'x' ∨ rest.head? = some 'X') ∧ hexDigits ≠ [] then
        some (refs.number ((hexDigits.filterMap hexDigit).foldl (fun n digit => 16 * n + digit) 0),
          2 + hexDigits.length + (semicolon (rest.tail.drop hexDigits.length)).length)
      else none
  | text =>
      let name := (text.takeWhile isNameChar).take 32
      if name = [] then none
      else
        let name := name ++ semicolon (text.drop name.length)
        some (named refs name, name.length)

/-- The rest of the text behind the characters which belong to a reference. -/
def unescapeFrom : (skip : Nat) → List Char → List Char
  | _, [] => []
  | skip + 1, _ :: rest => unescapeFrom skip rest
  | 0, c :: rest =>
      if c = '&' then
        match reference refs rest with
        | some (text, length) => text ++ unescapeFrom length rest
        | none => c :: unescapeFrom 0 rest
      else c :: unescapeFrom 0 rest

def unescape (text : List Char) : List Char := unescapeFrom refs 0 text

@[simp] theorem escape_nil : escape [] = [] := rfl

theorem escape_cons (c : Char) (text : List Char) :
    escape (c :: text) = escapeChar c ++ escape text := rfl

theorem escape_append (text text' : List Char) :
    escape (text ++ text') = escape text ++ escape text' := List.flatMap_append

theorem reference_name (name : List Char) (letters : name.all isNameChar = true)
    (filled : name ≠ []) (short : name.length ≤ 32) {text : List Char}
    (found : refs.names (name ++ [';']) = some text) (rest : List Char) :
    reference refs (name ++ ';' :: rest) = some (text, name.length + 1) := by
  have whole : ((name ++ ';' :: rest).takeWhile isNameChar).take 32 = name := by
    rw [List.takeWhile_append_of_pos (List.all_eq_true.mp letters), List.takeWhile_cons_of_neg (by decide),
      List.append_nil, List.take_of_length_le short]
  have behind : semicolon ((name ++ ';' :: rest).drop name.length) = [';'] := by
    rw [List.drop_left]
    rfl
  unfold reference
  split
  · rename_i same
    cases name with
    | nil => exact absurd rfl filled
    | cons c rest =>
        cases same
        exact absurd (List.all_eq_true.mp letters '#' List.mem_cons_self) (by decide)
  · dsimp only
    rw [whole, if_neg filled, behind, named, found, List.length_append]
    rfl

theorem reference_apos (rest : List Char) :
    reference refs ("#x27;".toList ++ rest) = some (['\''], 5) := by
  have number : reference refs ('#' :: 'x' :: '2' :: '7' :: ';' :: rest) =
      some (refs.number 0x27, 5) := rfl
  rw [refs.apos] at number
  exact number

theorem unescapeFrom_drop (text : List Char) (skip : Nat) :
    unescapeFrom refs skip text = unescapeFrom refs 0 (text.drop skip) := by
  induction text generalizing skip with
  | nil => rw [List.drop_nil, unescapeFrom, unescapeFrom]
  | cons c rest ih =>
      cases skip with
      | zero => rfl
      | succ skip => exact ih skip

/-- A reference which is read in whole. -/
theorem unescapeFrom_reference (name : List Char) {text rest : List Char}
    (read : reference refs (name ++ rest) = some (text, name.length)) :
    unescapeFrom refs 0 ('&' :: (name ++ rest)) = text ++ unescapeFrom refs 0 rest := by
  rw [unescapeFrom, if_pos rfl, read]
  dsimp only
  rw [unescapeFrom_drop, List.drop_left]

/-- A name with its semicolon is read in whole. -/
theorem unescapeFrom_name (name : List Char) (letters : name.all isNameChar = true)
    (filled : name ≠ []) (short : name.length ≤ 32) {text : List Char}
    (found : refs.names (name ++ [';']) = some text) (rest : List Char) :
    unescapeFrom refs 0 ('&' :: (name ++ [';']) ++ rest) = text ++ unescapeFrom refs 0 rest := by
  apply unescapeFrom_reference
  rw [List.append_assoc, List.length_append]
  exact reference_name refs name letters filled short found rest

theorem unescapeFrom_escapeChar (c : Char) (rest : List Char) :
    unescapeFrom refs 0 (escapeChar c ++ rest) = c :: unescapeFrom refs 0 rest := by
  unfold escapeChar
  split
  · rename_i amp
    rw [amp]
    exact unescapeFrom_name refs "amp".toList (by decide) (by decide) (by decide) refs.amp rest
  · rename_i no_amp
    split
    · rename_i lt
      rw [lt]
      exact unescapeFrom_name refs "lt".toList (by decide) (by decide) (by decide) refs.lt rest
    · split
      · rename_i gt
        rw [gt]
        exact unescapeFrom_name refs "gt".toList (by decide) (by decide) (by decide) refs.gt rest
      · split
        · rename_i quot
          rw [quot]
          exact unescapeFrom_name refs "quot".toList (by decide) (by decide) (by decide) refs.quot
            rest
        · split
          · rename_i apos
            rw [apos]
            exact unescapeFrom_reference refs "#x27;".toList (reference_apos refs rest)
          · rw [List.singleton_append, unescapeFrom, if_neg no_amp]

/-- What has been escaped is read back. -/
theorem unescape_escape (text : List Char) : unescape refs (escape text) = text := by
  unfold unescape
  induction text with
  | nil => rfl
  | cons c rest ih => rw [escape_cons, unescapeFrom_escapeChar, ih]

theorem escape_of_plain {text : List Char} (plain : ∀ c ∈ text, escapeChar c = [c]) :
    escape text = text := by
  induction text with
  | nil => rfl
  | cons c rest ih =>
      rw [escape_cons, plain c List.mem_cons_self,
        ih fun other member => plain other (List.mem_cons_of_mem c member), List.singleton_append]

theorem not_mem_escapeChar {c other : Char} (differ : c ≠ other)
    (plain : other ∉ "&amp;&lt;&gt;&quot;&#x27;".toList) : other ∉ escapeChar c := by
  intro member
  have reference : ∀ text : List Char, text ⊆ "&amp;&lt;&gt;&quot;&#x27;".toList → other ∉ text :=
    fun text inside there => plain (inside there)
  unfold escapeChar at member
  split at member
  · exact reference _ (by decide) member
  · split at member
    · exact reference _ (by decide) member
    · split at member
      · exact reference _ (by decide) member
      · split at member
        · exact reference _ (by decide) member
        · split at member
          · exact reference _ (by decide) member
          · exact differ (List.mem_singleton.mp member).symm

/-- Escaping leaves the separators where they are. -/
theorem splitOn_escape {sep : Char} (plain : sep ∉ "&amp;&lt;&gt;&quot;&#x27;".toList)
    (own : escapeChar sep = [sep]) (text : List Char) :
    (escape text).splitOn sep = (text.splitOn sep).map escape := by
  induction text with
  | nil => rfl
  | cons c rest ih =>
      rw [escape_cons, List.splitOn_cons_eq_if_modifyHead]
      by_cases here : c = sep
      · rw [here, own, List.singleton_append, List.splitOn_cons_eq_if_modifyHead,
          if_pos (beq_self_eq_true sep), if_pos (beq_self_eq_true sep), ih]
        rfl
      · rw [Text.splitOn_append_of_not_mem (not_mem_escapeChar here plain), ih,
          if_neg (by simpa using here)]
        cases rest.splitOn sep with
        | nil => rfl
        | cons piece pieces => rfl

end Html
