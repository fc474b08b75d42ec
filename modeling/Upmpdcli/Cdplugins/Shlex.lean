import Mathlib.Data.List.TakeWhile
import Upmpdcli.SmallutRoundTrip

set_option autoImplicit false

/- The `shlex` lexer as `stringToStrings` of the Python plugins sets it up: posix rules, blanks
around the tokens, double quotes only. -/
namespace Upmpdcli.Shlex

/-- The states of `read_token`, with its `escapedstate`: whether a backslash was read between
quotes. A comment is what `readline` takes. -/
inductive State
  | space
  | word
  | quotes
  | escape (inQuotes : Bool)
  | comment
deriving DecidableEq

/-- The strings of the lexer in which a character is looked up. -/
inductive Kind
  | whitespace
  | commenters
  | escape
  | quotes
  | word
deriving DecidableEq

def kind (c : Char) : Kind :=
  if " \t\r\n".toList.contains c then .whitespace
  else if c = '#' then .commenters
  else if c = '\\' then .escape
  else if c = '"' then .quotes
  else .word

/-- One turn of the loop of `read_token`: the state, `token` and `quoted`, and whether the
loop ends there with the token. -/
def readChar (c : Char) (state : State) (token : List Char) (quoted : Bool) :
    State × List Char × Bool × Bool :=
  match state, kind c with
  | .space, .whitespace => (.space, token, quoted, token ≠ [] ∨ quoted)
  | .space, .commenters => (.comment, token, quoted, false)
  | .space, .escape => (.escape false, token, quoted, false)
  | .space, .quotes => (.quotes, token, quoted, false)
  | .space, .word => (.word, [c], quoted, false)
  | .quotes, .quotes => (.word, token, true, false)
  | .quotes, .escape => (.escape true, token, true, false)
  | .quotes, _ => (.quotes, token ++ [c], true, false)
  | .escape false, _ => (.word, token ++ [c], quoted, false)
  -- between quotes, only the quote and the backslash can be escaped
  | .escape true, .quotes | .escape true, .escape => (.quotes, token ++ [c], quoted, false)
  | .escape true, _ => (.quotes, token ++ ['\\'] ++ [c], quoted, false)
  | .word, .whitespace => (.space, token, quoted, token ≠ [] ∨ quoted)
  | .word, .commenters => (.comment, token, quoted, token ≠ [] ∨ quoted)
  | .word, .quotes => (.quotes, token, quoted, false)
  | .word, .escape => (.escape false, token, quoted, false)
  | .word, .word => (.word, token ++ [c], quoted, false)
  | .comment, _ => (if c = '\n' then .space else .comment, token, quoted, false)

/-- The loop of `stringToStrings`, which an empty token ends. There is no result when a quote
or a backslash is left open, which raises an error. -/
def tokensFrom :
    List Char → State → List Char → Bool → List String → Option (List String)
  | [], .quotes, _, _, _ | [], .escape _, _, _, _ => none
  | [], _, token, _, tokens => some (if token = [] then tokens else tokens ++ [String.ofList token])
  | c :: rest, state, token, quoted, tokens =>
      match readChar c state token quoted with
      | (state, token, quoted, false) => tokensFrom rest state token quoted tokens
      | (state, token, _, true) =>
          if token = [] then some tokens
          else tokensFrom rest state [] false (tokens ++ [String.ofList token])

/-- `stringToStrings` of `pycommon/conftree.py`, with its default arguments. -/
def stringToStrings (s : String) : Option (List String) := tokensFrom s.toList .space [] false []

theorem kind_spec (c : Char) :
    match kind c with
    | .whitespace => c = ' ' ∨ c = '\t' ∨ c = '\n' ∨ c = '\r'
    | .commenters => c = '#'
    | .escape => c = '\\'
    | .quotes => c = '"'
    | .word =>
        ¬ (c = ' ' ∨ c = '\t' ∨ c = '\n' ∨ c = '\r') ∧ c ≠ '#' ∧ c ≠ '\\' ∧ c ≠ '"' := by
  have listed : " \t\r\n".toList.contains c = true ↔
      c = ' ' ∨ c = '\t' ∨ c = '\n' ∨ c = '\r' := by
    simp
    tauto
  unfold kind
  by_cases blank : " \t\r\n".toList.contains c = true
  · rw [if_pos blank]
    exact listed.mp blank
  by_cases sign : c = '#'
  · rw [if_neg blank, if_pos sign]
    exact sign
  by_cases backslash : c = '\\'
  · rw [if_neg blank, if_neg sign, if_pos backslash]
    exact backslash
  by_cases quote : c = '"'
  · rw [if_neg blank, if_neg sign, if_neg backslash, if_pos quote]
    exact quote
  · rw [if_neg blank, if_neg sign, if_neg backslash, if_neg quote]
    exact ⟨fun there => blank (listed.mpr there), sign, backslash, quote⟩

section Step

variable (c : Char) (rest : List Char) (state : State) (token : List Char) (quoted : Bool)
  (tokens : List String)

theorem tokensFrom_cons :
    tokensFrom (c :: rest) state token quoted tokens =
      let read := readChar c state token quoted
      if read.2.2.2 then
        if read.2.1 = [] then some tokens
        else tokensFrom rest read.1 [] false (tokens ++ [String.ofList read.2.1])
      else tokensFrom rest read.1 read.2.1 read.2.2.1 tokens := by
  rw [tokensFrom.eq_def]
  dsimp only
  generalize readChar c state token quoted = read
  obtain ⟨state', token', quoted', ended⟩ := read
  cases ended <;> rfl

/-- A word is not empty, or has been quoted. -/
def Begun (state : State) (token : List Char) (quoted : Bool) : Prop :=
  match state with
  | .space | .comment => token = [] ∧ quoted = false
  | .word => token ≠ [] ∨ quoted = true
  | .quotes | .escape _ => True

/-- A word which has begun ends with its token. -/
theorem begun_readChar (begun : Begun state token quoted) :
    let read := readChar c state token quoted
    (read.2.2.2 = false → Begun read.1 read.2.1 read.2.2.1) ∧
      (read.2.2.2 = true → Begun read.1 [] false) := by
  unfold readChar
  cases state with
  | space =>
      obtain ⟨rfl, rfl⟩ := begun
      cases kind c <;> simp [Begun]
  | word =>
      have begun : token ≠ [] ∨ quoted = true := begun
      cases kind c <;> simp [Begun, begun]
  | quotes => cases kind c <;> simp [Begun]
  | escape inQuotes => cases inQuotes <;> cases kind c <;> simp [Begun]
  | comment =>
      obtain ⟨rfl, rfl⟩ := begun
      by_cases newline : c = '\n' <;> simp [Begun, newline]

end Step

end Upmpdcli.Shlex
