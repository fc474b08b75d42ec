import Upmpdcli.Cdplugins.StringToStrings
import Upmpdcli.Cdplugins.Uprcl.Utils

set_option autoImplicit false

/- The translation of a UPnP search string to a recoll one, `uprclsearch.py`. Positions are
the ones of the code. What a scanner has looked at is returned beside them as `stop`, which
the code does not have. -/
namespace Upmpdcli.UprclSearch

open Text (isspace)
open Uprcl (upnp2rclfields)

/-- The exceptions which leave `_upnpsearchtorecoll`: its own one about `*`, the use of a
variable which was not assigned, and the `ValueError` of `shlex`. -/
inductive SearchError
  | usage
  | unboundLocal
  | value
deriving DecidableEq

/-- `re.sub('[\t\n\r\f ]+', ' ', s)`. `blank` says whether the character before was one of
these. -/
def simplify : List Char → (blank : Bool) → List Char
  | [], _ => []
  | c :: rest, blank =>
      if ['\t', '\n', '\r', '\x0c', ' '].contains c then
        if blank then simplify rest true else ' ' :: simplify rest true
      else c :: simplify rest false

def getchar (s : List Char) (i : Nat) : Nat × Option Char :=
  match s[i]? with
  | some c => (i + 1, some c)
  | none => (i, none)

/-- The loop of `_readword` from `j`. Its variable keeps the last index when the string ends. -/
def readwordFrom : List Char → Nat → List Char → Nat × List Char
  | [], j, w => (j - 1, w)
  | c :: rest, j, w => if isspace c then (j, w) else readwordFrom rest (j + 1) (w ++ [c])

/-- `_readword`, called on a character which is there. -/
def readword (s : List Char) (i : Nat) : Nat × List Char :=
  let (j, w) := readwordFrom (s.drop i) i []
  (if j + 1 = s.length then j + 1 else j, w)

/-- What one character does in `_parsestring`: the flags `escape` and `instring` behind it and
what is added to `str`. There is nothing for the closing quote. -/
def unquote (escape instring : Bool) (c : Char) : Option (Bool × Bool × List Char) :=
  if instring then
    if escape then if c = '"' then some (false, false, ['"']) else some (false, true, ['\\', c])
    else if c = '\\' then some (true, true, [])
    else some (false, true, [c])
  else if escape then some (false, c = '"', [c])
  else if c = '\\' then some (true, false, [])
  else if c = '"' then none
  else some (false, false, [c])

/-- The loop of `_parsestring`: the position to return, `stop` and `str`. -/
def parsestringFrom : List Char → Nat → (escape instring : Bool) → List Char →
    Nat × Nat × List Char
  | [], j, _, _, str => (j - 1, j, str)
  | c :: rest, j, escape, instring, str =>
      match unquote escape instring c with
      | none => (j + 1, j + 1, str)
      | some (escape, instring, more) => parsestringFrom rest (j + 1) escape instring (str ++ more)

/-- `_parsestring`. When the loop has not been entered there is no `j` to return. -/
def parsestring (s : List Char) (i : Nat) : Except SearchError (Nat × Nat × List String) :=
  let (j, stop, str) := parsestringFrom (s.drop i) i false false []
  match Shlex.stringToStrings (String.ofList str) with
  | none => .error .value
  | some tokens => if i < s.length then .ok (j, stop, tokens) else .error .unboundLocal

/-- `len(w.split())`. `inside` says whether the character before is in a word. -/
def wordCount : List Char → (inside : Bool) → Nat
  | [], _ => 0
  | c :: rest, inside =>
      if isspace c then wordCount rest false
      else (if inside then 0 else 1) + wordCount rest true

def separatePhrasesAndWords (v : List String) : String × List String :=
  v.foldl (fun (swords, phrases) w =>
    if wordCount w.toList false = 1 then ((if swords = "" then "" else swords ++ ",") ++ w, phrases)
    else (swords, phrases ++ [w])) ("", [])

def searchClauses (neg : Bool) (field oper words : String) (phrases : List String) : List String :=
  let clause (words : String) := (if neg then ["-"] else []) ++ [field, oper, words]
  (if words = "" then [] else clause words) ++ phrases.flatMap fun ph => clause ("\"" ++ ph ++ "\"")

/-- The test about containers and items. -/
def searchClass (v : List String) (oper : String) (neg : Bool) : List String × Bool :=
  match v with
  | [only] =>
      if oper = ":" ∨ oper = "=" then
        if "object.container".toList.isPrefixOf only.toList then (["inode/directory"], neg)
        else if "object.item".toList.isPrefixOf only.toList then (["inode/directory"], true)
        else (v, neg)
      else (v, neg)
  | _ => (v, neg)

/-- `_makeSearchExp`: what it appends to `out`. A title is also looked for in file names. -/
def makeSearchExp (v : List String) (field oper : String) (neg : Bool) : List String :=
  if oper = "I" then []
  else
    let (v, neg) := searchClass v oper neg
    let (swords, phrases) := separatePhrasesAndWords v
    let clauses (field : String) := " (" :: searchClauses neg field oper swords phrases ++ [")"]
    if field = "title" then
      " (" :: clauses field ++ [if neg then " AND " else " OR "] ++ clauses "filename" ++ [") "]
    else clauses field

def fieldaliases : List (String × String) := [("dc:creator", "upnp:artist")]

/-- The variables of the loop of `_upnpsearchtorecoll`. -/
structure SearchState where
  i : Nat := 0
  out : List String := []
  field : String := ""
  oper : String := ""
  neg : Bool := false
deriving DecidableEq

/-- An unquoted word, in lower case. There is no result for an unknown field. -/
def searchWord (st : SearchState) (w : String) : Option SearchState :=
  if w = "contains" then some { st with oper := ":" }
  else if w = "doesnotcontain" then some { st with neg := true, oper := ":" }
  else if w = "derivedfrom" then some { st with oper := ":" }
  else if w = "exists" then some { st with oper := "I" }
  else if w = "true" ∨ w = "false" then some st
  else if w = "and" then some st
  else if w = "or" then some { st with out := st.out ++ ["OR"] }
  else if w = "upnp:class" then some { st with field := "mime" }
  else
    (upnp2rclfields.lookup ((fieldaliases.lookup w).getD w)).map fun field =>
      { st with field := field }

/-- What `*` is refused behind. -/
def hasOutput (out : List String) : Bool :=
  match out with
  | [] => false
  | [only] => only = "" || !only.toList.all isspace
  | _ => true

/-- What a turn of the loop does: another one follows, or the function returns or raises. -/
inductive Turn
  | next (st : SearchState)
  | ends (result : Except SearchError (Option String))

/-- One turn, with its `stop`. `lower` is the method of `str`. -/
def searchTurn (lower : String → String) (s : List Char) (st : SearchState) : Nat × Turn :=
  match getchar s st.i with
  | (i, none) => (i, .ends (.ok (some (" ".intercalate st.out))))
  | (i, some c) =>
      if isspace c then (i, .next { st with i := i })
      else if c = '*' then
        if hasOutput st.out ∨ (s.drop i ≠ [] ∧ ¬ (s.drop i).all isspace) then
          (i, .ends (.error .usage))
        else (i, .ends (.ok (some "mime:*")))
      else if c = '(' ∨ c = ')' then
        (i, .next { st with i := i, out := st.out ++ [String.ofList [c]] })
      else if c = '>' ∨ c = '<' ∨ c = '=' then
        (i, .next { st with i := i, oper := st.oper ++ String.ofList [c] })
      else if c = '"' then
        match parsestring s i with
        | .error error => (i, .ends (.error error))
        | .ok (j, stop, v) =>
            (stop, .next { i := j, out := st.out ++ makeSearchExp v st.field st.oper st.neg })
      else
        let (j, w) := readword s (i - 1)
        let stop := i - 1 + w.length
        match searchWord { st with i := j } (lower (String.ofList w)) with
        | none => (stop, .ends (.ok none))
        | some st => (stop, .next st)

/-- The loop, for at most the given number of turns: where each of them starts and stops,
and the result. -/
def searchLoop (lower : String → String) (s : List Char) :
    Nat → SearchState → Option (List (Nat × Nat) × Except SearchError (Option String))
  | 0, _ => none
  | turns + 1, st =>
      match searchTurn lower s st with
      | (stop, .ends result) => some ([(st.i, stop)], result)
      | (stop, .next next) =>
          (searchLoop lower s turns next).map fun (reads, result) => ((st.i, stop) :: reads, result)

/-- `_upnpsearchtorecoll`. No turn leaves the position where it was, so that there is at most
one for each character. -/
def upnpsearchtorecoll (lower : String → String) (s : String) :
    Option (List (Nat × Nat) × Except SearchError (Option String)) :=
  let s := simplify s.toList false
  searchLoop lower s (s.length + 1) {}

end Upmpdcli.UprclSearch
