import Mathlib.Algebra.Group.Int.Defs
import Mathlib.Algebra.Group.Nat.Defs
import Mathlib.Data.List.Infix

set_option autoImplicit false

namespace Upmpdcli

/-- What an `int` keeps of a number. -/
def wrap32 (n : Int) : Int := Int.bmod n (2 ^ 32)

theorem wrap32_of_fits {n : Int} (low : -2 ^ 31 ≤ n) (high : n < 2 ^ 31) : wrap32 n = n := by
  unfold wrap32
  rw [Int.bmod_eq_of_le] <;> omega

theorem wrap32_le {n : Int} (nonneg : 0 ≤ n) : wrap32 n ≤ n := by
  unfold wrap32
  rw [Int.bmod_def]
  split <;> omega

/-- `path_cat` of `pathut.cpp`. -/
def path_cat (s1 s2 : String) : String :=
  let res := if s1 = "" then "./" else s1
  if s2 = "" then res
  else if res.toList.getLast? = some '/' then res ++ s2
  else res ++ "/" ++ s2

namespace Smallut

/-- `isspace` in the C locale. -/
def isspace (c : Char) : Bool := c = ' ' || ('\t' ≤ c && c ≤ '\r')

def digits : List Char → Int → Int
  | [], n => n
  | c :: rest, n => if c.isDigit then digits rest (n * 10 + (c.toNat - 48)) else n

/-- `strtoll` in base 10, saturating as it does. -/
def atoll (s : String) : Int :=
  let text := s.toList.dropWhile isspace
  let value :=
    match text with
    | '-' :: rest => -digits rest 0
    | '+' :: rest => digits rest 0
    | text => digits text 0
  max (-2 ^ 63) (min value (2 ^ 63 - 1))

def atoi (s : String) : Int := wrap32 (atoll s)

def lltodecstr (val : Int) : String := toString val

def stringToBool (s : String) : Bool :=
  match s.toList with
  | [] => false
  | c :: _ => if c.isDigit then atoi s ≠ 0 else "yYtT".toList.contains c

def beginswith (big small : String) : Bool := small.toList.isPrefixOf big.toList

@[simp] theorem beginswith_empty (big : String) : beginswith big "" = true := by
  simp [beginswith]

/-- `find` of a substring. -/
def contains (s pattern : String) : Bool :=
  s.toList.tails.any fun rest => pattern.toList.isPrefixOf rest

theorem contains_iff (s pattern : String) :
    contains s pattern = true ↔ ∃ before after, s = before ++ pattern ++ after := by
  unfold contains
  rw [List.any_eq_true]
  constructor
  · rintro ⟨rest, suffix, isPrefix⟩
    obtain ⟨before, split⟩ := List.mem_tails _ _ |>.mp suffix
    obtain ⟨after, same⟩ := List.isPrefixOf_iff_prefix.mp isPrefix
    refine ⟨String.ofList before, String.ofList after, ?_⟩
    rw [← String.toList_inj]
    simp only [String.toList_append, String.toList_ofList, List.append_assoc, same, split]
  · rintro ⟨before, after, rfl⟩
    refine ⟨pattern.toList ++ after.toList, ?_, ?_⟩
    · rw [List.mem_tails]
      exact ⟨before.toList, by simp only [String.toList_append, List.append_assoc]⟩
    · exact List.isPrefixOf_iff_prefix.mpr (List.prefix_append _ _)

theorem contains_append_left {s pattern : String} (found : contains s pattern = true)
    (before : String) : contains (before ++ s) pattern = true := by
  obtain ⟨first, last, rfl⟩ := (contains_iff s pattern).mp found
  exact (contains_iff _ _).mpr ⟨before ++ first, last, by simp only [String.append_assoc]⟩

theorem contains_append_right {s pattern : String} (found : contains s pattern = true)
    (after : String) : contains (s ++ after) pattern = true := by
  obtain ⟨first, last, rfl⟩ := (contains_iff s pattern).mp found
  exact (contains_iff _ _).mpr ⟨first, last ++ after, by simp only [String.append_assoc]⟩

theorem contains_self (pattern : String) : contains pattern pattern = true :=
  (contains_iff pattern pattern).mpr ⟨"", "", by simp⟩

def trimstring (s ws : String) : String :=
  let outside (c : Char) : Bool := ws.toList.contains c
  String.ofList (((s.toList.reverse.dropWhile outside).reverse).dropWhile outside)

/-- `stringToTokens` with its default delimiters. -/
def stringToTokensFrom : List Char → List Char → List String
  | [], current => if current = [] then [] else [String.ofList current]
  | c :: rest, current =>
      if c = ' ' ∨ c = '\t' then
        if current = [] then stringToTokensFrom rest []
        else String.ofList current :: stringToTokensFrom rest []
      else stringToTokensFrom rest (current ++ [c])

def stringToTokens (s : String) : List String := stringToTokensFrom s.toList []

/-- One pass of `neutchars`: what separates two tokens becomes one `rep`, and there is
nothing in front of the first one. -/
def neutcharsFrom (chars : List Char) (rep : Char) : Bool → List Char → List Char
  | _, [] => []
  | inside, c :: rest =>
      if chars.contains c then
        if inside then rep :: neutcharsFrom chars rep false rest
        else neutcharsFrom chars rep false rest
      else c :: neutcharsFrom chars rep true rest

def neutchars (str chars : String) (rep : Char) : String :=
  String.ofList (neutcharsFrom chars.toList rep false str.toList)

inductive TokenState
  | space
  | token
  | inquote
  | escape
deriving DecidableEq

/-- The loop of `stringToStrings` with no additional separators, on what is left of the
string. The flag is false when the string ends inside quotes. -/
def stringToStringsFrom :
    List Char → TokenState → List Char → List String → List String × Bool
  | [], .space, _, tokens => (tokens, true)
  | [], .token, current, tokens => (tokens ++ [String.ofList current], true)
  | [], .inquote, _, tokens | [], .escape, _, tokens => (tokens, false)
  | '"' :: rest, .space, current, tokens => stringToStringsFrom rest .inquote current tokens
  | '"' :: rest, .token, current, tokens =>
      stringToStringsFrom rest .token (current ++ ['"']) tokens
  | '"' :: rest, .inquote, current, tokens =>
      stringToStringsFrom rest .space [] (tokens ++ [String.ofList current])
  | '"' :: rest, .escape, current, tokens =>
      stringToStringsFrom rest .inquote (current ++ ['"']) tokens
  | '\\' :: rest, .inquote, current, tokens => stringToStringsFrom rest .escape current tokens
  | '\\' :: rest, .escape, current, tokens =>
      stringToStringsFrom rest .inquote (current ++ ['\\']) tokens
  | '\\' :: rest, _, current, tokens =>
      stringToStringsFrom rest .token (current ++ ['\\']) tokens
  | c :: rest, state, current, tokens =>
      if c = ' ' ∨ c = '\t' ∨ c = '\n' ∨ c = '\r' then
        match state with
        | .space => stringToStringsFrom rest .space current tokens
        | .token => stringToStringsFrom rest .space [] (tokens ++ [String.ofList current])
        | .inquote => stringToStringsFrom rest .inquote (current ++ [c]) tokens
        | .escape => stringToStringsFrom rest .escape (current ++ [c]) tokens
      else
        let state :=
          match state with
          | .escape => .inquote
          | .space => .token
          | state => state
        stringToStringsFrom rest state (current ++ [c]) tokens

def stringToStrings (s : String) : List String × Bool :=
  stringToStringsFrom s.toList .space [] []

def hasblanks (tok : List Char) : Bool := tok.any " \t\n".toList.contains

def escapeQuote (car : Char) : List Char := if car = '"' then ['\\', car] else [car]

/-- What `stringsToString` writes for one token, with the blank behind it. -/
def encodeToken (tok : List Char) : List Char :=
  if tok = [] then ['"', '"', ' ']
  else
    let quote := if hasblanks tok then ['"'] else []
    quote ++ tok.flatMap escapeQuote ++ quote ++ [' ']

/-- `stringsToString`, with nothing in the string before. The blank behind the last token is
taken off. -/
def stringsToString (tokens : List String) : String :=
  String.ofList (tokens.flatMap fun tok => encodeToken tok.toList).dropLast

theorem digits_of_isDigit {text : List Char} (all : ∀ c ∈ text, c.isDigit = true) (start : Nat) :
    digits text start = (Nat.ofDigitChars 10 text start : Nat) := by
  induction text generalizing start with
  | nil =>
      rw [digits, Nat.ofDigitChars_nil]
  | cons c rest ih =>
      have digit := all c List.mem_cons_self
      have above : 48 ≤ c.toNat := by
        simp only [Char.isDigit, Bool.and_eq_true, decide_eq_true_eq] at digit
        exact digit.1
      rw [digits, if_pos digit, Nat.ofDigitChars_cons]
      have value : (start : Int) * 10 + (c.toNat - 48) = (10 * start + (c.toNat - '0'.toNat) : Nat) := by
        rw [show '0'.toNat = 48 from rfl]
        omega
      rw [value]
      exact ih (fun c there => all c (List.mem_cons_of_mem _ there)) _

theorem isDigit_of_mem_repr {n : Nat} {c : Char} (there : c ∈ n.repr.toList) :
    c.isDigit = true := by
  rw [Nat.toList_repr] at there
  exact Nat.isDigit_of_mem_toDigits (by decide) (by decide) there

theorem digits_repr (n : Nat) : digits n.repr.toList 0 = n := by
  have read := digits_of_isDigit (fun c => isDigit_of_mem_repr (n := n)) 0
  rw [Nat.toList_repr] at read ⊢
  rw [Nat.ofDigitChars_ten_toDigits] at read
  exact read

theorem not_isspace_of_isDigit {c : Char} (digit : c.isDigit = true) : isspace c = false := by
  have above : 48 ≤ c.toNat := by
    simp only [Char.isDigit, Bool.and_eq_true, decide_eq_true_eq] at digit
    exact digit.1
  unfold isspace
  rw [Bool.or_eq_false_iff, Bool.and_eq_false_iff]
  constructor
  · apply decide_eq_false
    rintro rfl
    exact absurd above (by decide)
  · right
    apply decide_eq_false
    intro below
    have : c.toNat ≤ 13 := below
    omega

/-- The characters of a number. -/
theorem isDigit_or_minus {val : Int} {c : Char} (there : c ∈ (lltodecstr val).toList) :
    c.isDigit = true ∨ c = '-' := by
  unfold lltodecstr at there
  rw [Int.toString_eq_repr, Int.repr_eq_if] at there
  split at there
  · exact .inl (isDigit_of_mem_repr there)
  · rw [String.toList_append, List.mem_append] at there
    rcases there with sign | there
    · exact .inr (List.mem_singleton.mp sign)
    · exact .inl (isDigit_of_mem_repr there)

theorem lltodecstr_ne_empty (val : Int) : (lltodecstr val).toList ≠ [] := by
  unfold lltodecstr
  rw [Int.toString_eq_repr, Int.repr_eq_if]
  split
  · rw [Nat.toList_repr]
    exact Nat.toDigits_ne_nil
  · rw [String.toList_append]
    simp

theorem atoll_lltodecstr {val : Int} (low : -2 ^ 63 ≤ val) (high : val < 2 ^ 63) :
    atoll (lltodecstr val) = val := by
  have kept : (lltodecstr val).toList.dropWhile isspace = (lltodecstr val).toList := by
    cases text : (lltodecstr val).toList with
    | nil => rfl
    | cons c rest =>
        apply List.dropWhile_cons_of_neg
        have first : c ∈ (lltodecstr val).toList := by
          rw [text]
          exact List.mem_cons_self
        rcases isDigit_or_minus first with digit | rfl
        · rw [not_isspace_of_isDigit digit]
          simp
        · decide
  have fits (value : Int) (same : value = val) :
      max (-2 ^ 63) (min value (2 ^ 63 - 1)) = val := by omega
  unfold atoll
  rw [kept]
  apply fits
  unfold lltodecstr
  rw [Int.toString_eq_repr, Int.repr_eq_if]
  by_cases positive : 0 ≤ val
  · rw [if_pos positive]
    have read := digits_repr val.toNat
    split
    · rename_i begins
      exact absurd (isDigit_of_mem_repr (begins ▸ List.mem_cons_self)) (by decide)
    · rename_i begins
      exact absurd (isDigit_of_mem_repr (begins ▸ List.mem_cons_self)) (by decide)
    · omega
  · rw [if_neg positive, String.toList_append]
    show -digits (-val).toNat.repr.toList 0 = val
    rw [digits_repr]
    omega

theorem atoi_lltodecstr {val : Int} (low : -2 ^ 31 ≤ val) (high : val < 2 ^ 31) :
    atoi (lltodecstr val) = val := by
  unfold atoi
  rw [atoll_lltodecstr (by omega) (by omega), wrap32_of_fits low high]

theorem stringToTokensFrom_of_no_blank {text : List Char} (current : List Char)
    (solid : ∀ c ∈ text, c ≠ ' ' ∧ c ≠ '\t') :
    stringToTokensFrom text current =
      if current ++ text = [] then [] else [String.ofList (current ++ text)] := by
  induction text generalizing current with
  | nil => rw [stringToTokensFrom, List.append_nil]
  | cons c rest ih =>
      obtain ⟨blank, tab⟩ := solid c List.mem_cons_self
      rw [stringToTokensFrom, if_neg (by simp [blank, tab]),
        ih (current ++ [c]) fun c there => solid c (List.mem_cons_of_mem _ there),
        List.append_assoc]
      rfl

/-- A number is one token. -/
theorem stringToTokens_lltodecstr (val : Int) :
    stringToTokens (lltodecstr val) = [lltodecstr val] := by
  have solid : ∀ c ∈ (lltodecstr val).toList, c ≠ ' ' ∧ c ≠ '\t' := by
    intro c there
    rcases isDigit_or_minus there with digit | rfl
    · constructor
      · rintro rfl
        exact absurd digit (by decide)
      · rintro rfl
        exact absurd digit (by decide)
    · decide
  unfold stringToTokens
  rw [stringToTokensFrom_of_no_blank [] solid, List.nil_append,
    if_neg (lltodecstr_ne_empty val), String.ofList_toList]

end Smallut

end Upmpdcli
