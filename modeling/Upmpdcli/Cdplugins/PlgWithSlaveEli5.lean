import Upmpdcli.Cdplugins.PlgWithSlave
import Upmpdcli.SmallutRoundTrip

set_option autoImplicit false

/- What `eli5` finds in a search string made of clauses `property op "value"`. The
parentheses are blanked before the string is split into words, also inside of the values. -/
namespace Upmpdcli

namespace Smallut

section Neutchars

variable {chars : List Char} {rep : Char}

theorem neutcharsFrom_kept {c : Char} (kept : chars.contains c = false) (inside : Bool)
    (rest : List Char) :
    neutcharsFrom chars rep inside (c :: rest) = c :: neutcharsFrom chars rep true rest := by
  rw [neutcharsFrom, kept]
  rfl

/-- A text without the characters comes out as it is. -/
theorem neutcharsFrom_append_of_kept {text : List Char}
    (kept : ∀ c ∈ text, chars.contains c = false) (some : text ≠ []) (inside : Bool)
    (rest : List Char) :
    neutcharsFrom chars rep inside (text ++ rest) = text ++ neutcharsFrom chars rep true rest := by
  induction text generalizing inside with
  | nil => exact absurd rfl some
  | cons c text ih =>
      have first := kept c List.mem_cons_self
      have others : ∀ d ∈ text, chars.contains d = false :=
        fun d member => kept d (List.mem_cons_of_mem c member)
      rw [List.cons_append, neutcharsFrom_kept first]
      by_cases more : text = []
      · rw [more]
        rfl
      · rw [ih others more]
        rfl

/-- Behind a character which stays, the pass does not depend on what was before. -/
theorem neutcharsFrom_append_cons {c : Char} (kept : chars.contains c = false) (inside : Bool)
    (text rest : List Char) :
    neutcharsFrom chars rep inside (text ++ c :: rest) =
      neutcharsFrom chars rep inside text ++ c :: neutcharsFrom chars rep true rest := by
  induction text generalizing inside with
  | nil => exact neutcharsFrom_kept kept inside rest
  | cons d text ih =>
      rw [List.cons_append, neutcharsFrom, neutcharsFrom, ih, ih]
      split
      · split <;> rfl
      · rfl

theorem not_contains_of_mem_neutcharsFrom (neutral : chars.contains rep = false) {inside : Bool}
    {text : List Char} {c : Char} (member : c ∈ neutcharsFrom chars rep inside text) :
    chars.contains c = false := by
  induction text generalizing inside with
  | nil => cases member
  | cons d text ih =>
      rw [neutcharsFrom] at member
      split at member
      · split at member
        · rcases List.mem_cons.mp member with same | later
          · rw [same, neutral]
          · exact ih later
        · exact ih member
      · rename_i kept
        rcases List.mem_cons.mp member with same | later
        · rw [same]
          exact eq_false_of_ne_true kept
        · exact ih later

theorem neutcharsFrom_eq_self_iff (neutral : chars.contains rep = false) (inside : Bool)
    (text : List Char) :
    neutcharsFrom chars rep inside text = text ↔ ∀ c ∈ text, chars.contains c = false := by
  constructor
  · intro same c member
    rw [← same] at member
    exact not_contains_of_mem_neutcharsFrom neutral member
  · intro kept
    by_cases some : text = []
    · rw [some]
      rfl
    · have whole : neutcharsFrom chars rep inside (text ++ []) =
          text ++ neutcharsFrom chars rep true [] :=
        neutcharsFrom_append_of_kept kept some inside []
      simpa [neutcharsFrom] using whole

end Neutchars

end Smallut

namespace SearchCriteria

open Smallut

/-- White space, as `stringToStrings` has it. -/
def IsBlank (c : Char) : Prop := c = ' ' ∨ c = '\t' ∨ c = '\n' ∨ c = '\r'

instance : DecidablePred IsBlank := fun c =>
  inferInstanceAs (Decidable (c = ' ' ∨ c = '\t' ∨ c = '\n' ∨ c = '\r'))

def parens : List Char := "()".toList

/-- A property, an operator or a logical word. -/
structure Word where
  text : List Char
  nonempty : text ≠ []
  unblank : ∀ c ∈ text, ¬ IsBlank c
  unquoted : '"' ∉ text
  unparen : ∀ c ∈ text, parens.contains c = false

structure Blanks where
  text : List Char
  blank : ∀ c ∈ text, IsBlank c

/-- The white space which has to be there. -/
structure Gap extends Blanks where
  nonempty : text ≠ []

/-- `property op "value"`. The value is any text. -/
structure RelExp where
  property : Word
  before : Gap
  op : Word
  behind : Gap
  value : List Char

inductive LogOp
  | and
  | or

def LogOp.word : LogOp → Word
  | .and => ⟨"and".toList, by simp, by simp [IsBlank], by simp, by simp [parens]⟩
  | .or => ⟨"or".toList, by simp, by simp [IsBlank], by simp, by simp [parens]⟩

inductive SearchCrit
  | rel (exp : RelExp)
  | paren (opening : Blanks) (crit : SearchCrit) (closing : Blanks)
  | logic (first : SearchCrit) (before : Gap) (op : LogOp) (behind : Gap) (second : SearchCrit)

/-- Quotes and backslashes are escaped between the quotes. -/
def escape (c : Char) : List Char := if c = '"' ∨ c = '\\' then ['\\', c] else [c]

def quoted (value : List Char) : List Char := '"' :: value.flatMap escape ++ ['"']

def RelExp.text (exp : RelExp) : List Char :=
  exp.property.text ++ exp.before.text ++ exp.op.text ++ exp.behind.text ++ quoted exp.value

def SearchCrit.text : SearchCrit → List Char
  | rel exp => exp.text
  | paren opening crit closing => '(' :: opening.text ++ crit.text ++ closing.text ++ [')']
  | logic first before op behind second =>
      first.text ++ before.text ++ op.word.text ++ behind.text ++ second.text

/-- The clauses, from left to right. -/
def SearchCrit.rels : SearchCrit → List RelExp
  | rel exp => [exp]
  | paren _ crit _ => crit.rels
  | logic first _ _ _ second => first.rels ++ second.rels

/-- What the blanking of the parentheses leaves of a value. -/
def blanked (value : List Char) : List Char := neutcharsFrom parens ' ' true value

def RelExp.tokens (exp : RelExp) : List String :=
  [exp.property.text, exp.op.text, blanked exp.value].map String.ofList

def SearchCrit.tokens : SearchCrit → List String
  | rel exp => exp.tokens
  | paren _ crit _ => crit.tokens
  | logic first _ op _ second => first.tokens ++ String.ofList op.word.text :: second.tokens

/-- The parentheses are blanked and the words read, from between two words. -/
def readFrom (inside : Bool) (text : List Char) (tokens : List String) : List String × Bool :=
  stringToStringsFrom (neutcharsFrom parens ' ' inside text) .space [] tokens

theorem blank_not_paren {c : Char} (blank : IsBlank c) : parens.contains c = false := by
  rcases blank with rfl | rfl | rfl | rfl
  · rfl
  · rfl
  · rfl
  · rfl

theorem blanked_eq_self_iff (value : List Char) :
    blanked value = value ↔ ∀ c ∈ value, parens.contains c = false :=
  neutcharsFrom_eq_self_iff rfl true value

section Read

variable (inside : Bool) (rest : List Char) (tokens : List String)

theorem readFrom_blank {c : Char} (blank : IsBlank c) :
    readFrom inside (c :: rest) tokens = readFrom true rest tokens := by
  unfold readFrom
  rw [neutcharsFrom_kept (blank_not_paren blank), stringToStringsFrom_cons]
  rcases blank with rfl | rfl | rfl | rfl
  · rfl
  · rfl
  · rfl
  · rfl

theorem readFrom_paren {c : Char} (paren : parens.contains c = true) :
    readFrom inside (c :: rest) tokens = readFrom false rest tokens := by
  unfold readFrom
  rw [neutcharsFrom, if_pos paren]
  cases inside with
  | true => exact stringToStringsFrom_cons ' ' _ .space [] tokens
  | false => rfl

theorem readFrom_blanks (blanks : Blanks) :
    ∃ inside', readFrom inside (blanks.text ++ rest) tokens = readFrom inside' rest tokens := by
  obtain ⟨text, blank⟩ := blanks
  change ∃ inside', readFrom inside (text ++ rest) tokens = readFrom inside' rest tokens
  induction text generalizing inside with
  | nil => exact ⟨inside, rfl⟩
  | cons c text ih =>
      have first := blank c List.mem_cons_self
      rw [List.cons_append, readFrom_blank inside (text ++ rest) tokens first]
      exact ih true fun d member => blank d (List.mem_cons_of_mem c member)

/-- A word, with the blank behind it. -/
theorem readFrom_word (word : Word) {c : Char} (blank : IsBlank c) :
    readFrom inside (word.text ++ c :: rest) tokens =
      readFrom true rest (tokens ++ [String.ofList word.text]) := by
  have bare : ∀ d ∈ word.text, Bare d := by
    intro d member
    have unblank := word.unblank d member
    simp only [IsBlank, not_or] at unblank
    refine ⟨fun same => word.unquoted (same ▸ member), unblank.2.2.2, ?_⟩
    simp [unblank]
  unfold readFrom
  rw [neutcharsFrom_append_of_kept word.unparen word.nonempty,
    neutcharsFrom_kept (blank_not_paren blank), read_first _ tokens bare word.nonempty,
    stringToStringsFrom_cons]
  rcases blank with rfl | rfl | rfl | rfl
  · rfl
  · rfl
  · rfl
  · rfl

theorem readFrom_word_gap (word : Word) (gap : Gap) :
    ∃ inside', readFrom inside (word.text ++ gap.text ++ rest) tokens =
      readFrom inside' rest (tokens ++ [String.ofList word.text]) := by
  obtain ⟨⟨text, blank⟩, some⟩ := gap
  cases text with
  | nil => exact absurd rfl some
  | cons c text =>
      rw [List.append_assoc, List.cons_append]
      rw [readFrom_word inside (text ++ rest) tokens word (blank c List.mem_cons_self)]
      exact readFrom_blanks true rest _
        ⟨text, fun d member => blank d (List.mem_cons_of_mem c member)⟩

/-- The escapes are not touched by the blanking. -/
theorem neutcharsFrom_flatMap_escape (value : List Char) :
    neutcharsFrom parens ' ' inside (value.flatMap escape) =
      (neutcharsFrom parens ' ' inside value).flatMap escape := by
  induction value generalizing inside with
  | nil => rfl
  | cons c value ih =>
      rw [List.flatMap_cons]
      by_cases paren : parens.contains c = true
      · have plain : escape c = [c] := by
          rw [escape, if_neg]
          rintro (rfl | rfl)
          · cases paren
          · cases paren
        rw [plain, List.singleton_append, neutcharsFrom, neutcharsFrom, if_pos paren, if_pos paren]
        cases inside with
        | true => exact congrArg (' ' :: ·) (ih false)
        | false => exact ih false
      · have kept : parens.contains c = false := eq_false_of_ne_true paren
        rw [neutcharsFrom_kept kept, List.flatMap_cons, ← ih true]
        unfold escape
        split
        · rw [List.cons_append, List.singleton_append, neutcharsFrom_kept rfl,
            neutcharsFrom_kept kept]
          rfl
        · rw [List.singleton_append, neutcharsFrom_kept kept]
          rfl

/-- Between quotes, each escaped character stands for itself. -/
theorem read_escaped (current value : List Char) :
    stringToStringsFrom (value.flatMap escape ++ rest) .inquote current tokens =
      stringToStringsFrom rest .inquote (current ++ value) tokens := by
  induction value generalizing current with
  | nil => rw [List.append_nil]; rfl
  | cons c value ih =>
      have later := ih (current ++ [c])
      rw [List.append_assoc, List.singleton_append] at later
      rw [List.flatMap_cons, List.append_assoc]
      unfold escape
      split
      · rename_i special
        rw [List.cons_append, stringToStringsFrom_cons]
        change stringToStringsFrom _ .escape current tokens = _
        rw [List.singleton_append, stringToStringsFrom_cons]
        rcases special with rfl | rfl
        · exact later
        · exact later
      · rename_i special
        rw [not_or] at special
        rw [List.singleton_append, stringToStringsFrom_cons,
          tokenStep_inquote current tokens special.1 special.2]
        exact later

theorem readFrom_quoted (value : List Char) :
    readFrom inside (quoted value ++ rest) tokens =
      readFrom true rest (tokens ++ [String.ofList (blanked value)]) := by
  unfold readFrom quoted
  rw [List.cons_append, List.cons_append, List.append_assoc, neutcharsFrom_kept rfl,
    List.singleton_append, neutcharsFrom_append_cons rfl, neutcharsFrom_flatMap_escape,
    stringToStringsFrom_cons]
  change stringToStringsFrom _ .inquote [] tokens = _
  rw [read_escaped, stringToStringsFrom_cons]
  rfl

theorem readFrom_rel (exp : RelExp) :
    ∃ inside', readFrom inside (exp.text ++ rest) tokens =
      readFrom inside' rest (tokens ++ exp.tokens) := by
  obtain ⟨first, property⟩ := readFrom_word_gap inside
    (exp.op.text ++ exp.behind.text ++ (quoted exp.value ++ rest)) tokens exp.property exp.before
  obtain ⟨second, op⟩ := readFrom_word_gap first (quoted exp.value ++ rest)
    (tokens ++ [String.ofList exp.property.text]) exp.op exp.behind
  rw [op, readFrom_quoted] at property
  exact ⟨true, by simpa [RelExp.text, RelExp.tokens] using property⟩

end Read

theorem readFrom_crit (crit : SearchCrit) (inside : Bool) (rest : List Char)
    (tokens : List String) :
    ∃ inside', readFrom inside (crit.text ++ rest) tokens =
      readFrom inside' rest (tokens ++ crit.tokens) := by
  induction crit generalizing inside rest tokens with
  | rel exp => exact readFrom_rel inside rest tokens exp
  | paren opening crit closing ih =>
      obtain ⟨first, opened⟩ := readFrom_blanks false
        (crit.text ++ (closing.text ++ ')' :: rest)) tokens opening
      obtain ⟨second, within⟩ := ih first (closing.text ++ ')' :: rest) tokens
      obtain ⟨third, closed⟩ := readFrom_blanks second (')' :: rest) (tokens ++ crit.tokens) closing
      have start := readFrom_paren inside
        (opening.text ++ (crit.text ++ (closing.text ++ ')' :: rest))) tokens
        (c := '(') rfl
      rw [opened, within, closed, readFrom_paren third rest _ rfl] at start
      exact ⟨false, by simpa [SearchCrit.text, SearchCrit.tokens] using start⟩
  | logic left before op behind right ihLeft ihRight =>
      obtain ⟨first, begun⟩ := ihLeft inside
        (before.text ++ (op.word.text ++ behind.text ++ (right.text ++ rest))) tokens
      obtain ⟨second, apart⟩ := readFrom_blanks first
        (op.word.text ++ behind.text ++ (right.text ++ rest)) (tokens ++ left.tokens)
        before.toBlanks
      obtain ⟨third, word⟩ := readFrom_word_gap second (right.text ++ rest)
        (tokens ++ left.tokens) op.word behind
      obtain ⟨fourth, ended⟩ := ihRight third rest
        (tokens ++ left.tokens ++ [String.ofList op.word.text])
      rw [apart, word, ended] at begun
      exact ⟨fourth, by simpa [SearchCrit.text, SearchCrit.tokens] using begun⟩

/-- The words of some clauses, with one word between two of them. -/
inductive Clauses : List RelExp → List String → Prop
  | last (exp : RelExp) : Clauses [exp] exp.tokens
  | more (exp : RelExp) (word : String) {rels : List RelExp} {tokens : List String}
      (rest : Clauses rels tokens) : Clauses (exp :: rels) (exp.tokens ++ word :: tokens)

theorem Clauses.append {rels others : List RelExp} {tokens more : List String}
    (left : Clauses rels tokens) (word : String) (right : Clauses others more) :
    Clauses (rels ++ others) (tokens ++ word :: more) := by
  induction left with
  | last exp => exact .more exp word right
  | more exp between rest ih =>
      rw [List.cons_append, List.append_assoc, List.cons_append]
      exact .more exp between ih

theorem SearchCrit.clauses (crit : SearchCrit) : Clauses crit.rels crit.tokens := by
  induction crit with
  | rel exp => exact .last exp
  | paren opening crit closing ih => exact ih
  | logic first before op behind second ihFirst ihSecond =>
      exact ihFirst.append (String.ofList op.word.text) ihSecond

theorem Clauses.length {rels : List RelExp} {tokens : List String} (clauses : Clauses rels tokens) :
    tokens.length + 1 = 4 * rels.length := by
  induction clauses with
  | last exp => rfl
  | more exp word rest ih =>
      simp only [List.length_append, List.length_cons, RelExp.tokens, List.length_map,
        List.length_nil]
      omega

/-- What the slave is to look for, when the property is one of the handled ones. -/
def RelExp.kind (exp : RelExp) : Option String :=
  if exp.property.text = "upnp:artist".toList ∨ exp.property.text = "dc:author".toList then
    some "artist"
  else if exp.property.text = "upnp:album".toList then some "album"
  else if exp.property.text = "dc:title".toList then some "track"
  else none

def RelExp.isClass (exp : RelExp) : Bool := exp.property.text = "upnp:class".toList

/-- The first clause which is handled. -/
def handled (rels : List RelExp) : Option RelExp := rels.find? (·.kind.isSome)

/-- The last class clause before it. -/
def classBefore (rels : List RelExp) : Option RelExp :=
  ((rels.takeWhile (·.kind.isNone)).filter (·.isClass)).getLast?

/-- The slots say what the search criteria say. -/
structure Found (rels : List RelExp) (slots : Eli5) : Prop where
  value : ∀ exp ∈ handled rels, slots.value = String.ofList exp.value
  slavefield : ∀ exp ∈ handled rels, exp.kind = some slots.slavefield
  classfilter : ∀ exp ∈ handled rels,
    slots.classfilter = String.ofList (((classBefore rels).map RelExp.value).getD [])

/-- The search string, with white space around it. -/
def searchstr (lead : Blanks) (crit : SearchCrit) (trail : Blanks) : String :=
  String.ofList (lead.text ++ crit.text ++ trail.text)

theorem eli5_searchstr (lead : Blanks) (crit : SearchCrit) (trail : Blanks) :
    PlgWithSlave.eli5 (searchstr lead crit trail) =
      some (PlgWithSlave.eli5Clauses crit.tokens {}) := by
  obtain ⟨first, begun⟩ := readFrom_blanks false (crit.text ++ trail.text) [] lead
  obtain ⟨second, within⟩ := readFrom_crit crit first trail.text []
  obtain ⟨third, ended⟩ := readFrom_blanks second [] ([] ++ crit.tokens) trail
  rw [List.append_nil] at ended
  rw [within, ended] at begun
  have words : (stringToStrings (neutchars (searchstr lead crit trail) "()" ' ')).1 =
      crit.tokens := by
    unfold stringToStrings neutchars searchstr
    simp only [String.toList_ofList, List.append_assoc]
    exact congrArg Prod.fst begun
  have length := crit.clauses.length
  unfold PlgWithSlave.eli5
  rw [words, if_neg (by omega)]

theorem ofList_eq_iff {text : List Char} {s : String} :
    String.ofList text = s ↔ text = s.toList := by
  constructor
  · rintro rfl
    exact String.toList_ofList.symm
  · rintro rfl
    exact String.ofList_toList

section Clause

variable {exp : RelExp} (value : String) (slots : Eli5)

theorem eli5Clause_of_handled {field : String} (kind : exp.kind = some field) :
    PlgWithSlave.eli5Clause (String.ofList exp.property.text) value slots =
      ({ slots with slavefield := field, value := value }, true) := by
  have other : exp.property.text ≠ "upnp:class".toList := by
    intro same
    rw [RelExp.kind, same] at kind
    cases kind
  unfold PlgWithSlave.eli5Clause
  simp only [ofList_eq_iff]
  rw [if_neg other]
  unfold RelExp.kind at kind
  split at kind
  · rename_i artist
    cases kind
    rw [if_pos artist]
  · rename_i artist
    rw [if_neg artist]
    split at kind
    · rename_i album
      cases kind
      rw [if_pos album]
    · rename_i album
      rw [if_neg album]
      split at kind
      · rename_i title
        cases kind
        rw [if_pos title]
      · cases kind

theorem eli5Clause_of_unhandled (kind : exp.kind = none) :
    (PlgWithSlave.eli5Clause (String.ofList exp.property.text) value slots).2 = false ∧
      (PlgWithSlave.eli5Clause (String.ofList exp.property.text) value slots).1.classfilter =
        if exp.isClass then value else slots.classfilter := by
  unfold PlgWithSlave.eli5Clause
  simp only [ofList_eq_iff]
  by_cases isClass : exp.property.text = "upnp:class".toList
  · have filters : exp.isClass = true := decide_eq_true isClass
    rw [if_pos isClass, if_pos filters]
    exact ⟨rfl, rfl⟩
  · have passes : ¬ exp.isClass = true := fun filters => isClass (of_decide_eq_true filters)
    rw [if_neg isClass, if_neg passes]
    unfold RelExp.kind at kind
    split at kind
    · cases kind
    · rename_i artist
      rw [if_neg artist]
      split at kind
      · cases kind
      · rename_i album
        rw [if_neg album]
        split at kind
        · cases kind
        · rename_i title
          rw [if_neg title]
          exact ⟨rfl, rfl⟩

end Clause

section Before

variable {exp : RelExp} (rels : List RelExp)

theorem handled_cons_of_handled {field : String} (kind : exp.kind = some field) :
    handled (exp :: rels) = some exp :=
  List.find?_cons_of_pos (by simp [kind])

theorem handled_cons_of_unhandled (kind : exp.kind = none) :
    handled (exp :: rels) = handled rels :=
  List.find?_cons_of_neg (by simp [kind])

theorem classBefore_cons_of_handled {field : String} (kind : exp.kind = some field) :
    classBefore (exp :: rels) = none := by
  unfold classBefore
  rw [List.takeWhile_cons_of_neg (by simp [kind])]
  rfl

theorem classBefore_cons_of_unhandled (kind : exp.kind = none) :
    classBefore (exp :: rels) =
      if exp.isClass then some ((classBefore rels).getD exp) else classBefore rels := by
  unfold classBefore
  rw [List.takeWhile_cons_of_pos (by simp [kind])]
  split
  · rename_i isClass
    rw [List.filter_cons_of_pos isClass, List.getLast?_cons]
  · rename_i isClass
    rw [List.filter_cons_of_neg isClass]

end Before

/-- The loop of `eli5` over the words of some clauses. -/
theorem Clauses.eli5Clauses {rels : List RelExp} {tokens : List String} {found : RelExp}
    (clauses : Clauses rels tokens) (first : handled rels = some found) (slots : Eli5) :
    (PlgWithSlave.eli5Clauses tokens slots).value = String.ofList (blanked found.value) ∧
      found.kind = some (PlgWithSlave.eli5Clauses tokens slots).slavefield ∧
      (PlgWithSlave.eli5Clauses tokens slots).classfilter =
        ((classBefore rels).map fun exp => String.ofList (blanked exp.value)).getD
          slots.classfilter := by
  induction clauses generalizing slots with
  | last exp =>
      cases kind : exp.kind with
      | none =>
          rw [handled_cons_of_unhandled [] kind] at first
          cases first
      | some field =>
          have turn : PlgWithSlave.eli5Clauses exp.tokens slots =
              (PlgWithSlave.eli5Clause (String.ofList exp.property.text)
                (String.ofList (blanked exp.value)) slots).1 := rfl
          rw [turn, eli5Clause_of_handled _ slots kind, classBefore_cons_of_handled [] kind]
          rw [handled_cons_of_handled [] kind] at first
          cases first
          exact ⟨rfl, kind, rfl⟩
  | more exp word rest ih =>
      rename_i rels tokens
      have turn : PlgWithSlave.eli5Clauses (exp.tokens ++ word :: tokens) slots =
          let out := PlgWithSlave.eli5Clause (String.ofList exp.property.text)
            (String.ofList (blanked exp.value)) slots
          if out.2 then out.1 else PlgWithSlave.eli5Clauses tokens out.1 := rfl
      rw [turn]
      cases kind : exp.kind with
      | none =>
          rw [handled_cons_of_unhandled rels kind] at first
          obtain ⟨goes, filter⟩ := eli5Clause_of_unhandled
            (String.ofList (blanked exp.value)) slots kind
          rw [if_neg (by simp [goes]), classBefore_cons_of_unhandled rels kind]
          obtain ⟨value, slavefield, classfilter⟩ := ih first
            (PlgWithSlave.eli5Clause (String.ofList exp.property.text)
              (String.ofList (blanked exp.value)) slots).1
          refine ⟨value, slavefield, ?_⟩
          rw [classfilter, filter]
          split
          · cases classBefore rels with
            | none => rfl
            | some later => rfl
          · rfl
      | some field =>
          rw [eli5Clause_of_handled _ slots kind, classBefore_cons_of_handled rels kind]
          rw [handled_cons_of_handled rels kind] at first
          cases first
          exact ⟨rfl, kind, rfl⟩

/-- `eli5` succeeds and finds what the search criteria say. -/
def Simplified (lead : Blanks) (crit : SearchCrit) (trail : Blanks) : Prop :=
  ∃ slots, PlgWithSlave.eli5 (searchstr lead crit trail) = some slots ∧ Found crit.rels slots

def Unparenthesized (value : List Char) : Prop := ∀ c ∈ value, parens.contains c = false

section Simplified

variable {lead trail : Blanks} {crit : SearchCrit}

theorem Simplified.unparenthesized (simplified : Simplified lead crit trail) {exp : RelExp}
    (first : exp ∈ handled crit.rels) :
    Unparenthesized exp.value ∧
      ∀ before ∈ classBefore crit.rels, Unparenthesized before.value := by
  obtain ⟨slots, found, faithful⟩ := simplified
  rw [eli5_searchstr lead crit trail] at found
  cases found
  obtain ⟨value, -, classfilter⟩ := crit.clauses.eli5Clauses first {}
  constructor
  · have same := String.ofList_injective (value.symm.trans (faithful.value exp first))
    exact (blanked_eq_self_iff exp.value).mp same
  · intro before last
    have same := classfilter.symm.trans (faithful.classfilter exp first)
    rw [Option.mem_def.mp last] at same
    exact (blanked_eq_self_iff before.value).mp (String.ofList_injective same)

theorem simplified_of_unparenthesized
    (plain : ∀ exp ∈ handled crit.rels, Unparenthesized exp.value ∧
      ∀ before ∈ classBefore crit.rels, Unparenthesized before.value) :
    Simplified lead crit trail := by
  refine ⟨_, eli5_searchstr lead crit trail, ?_, ?_, ?_⟩
  · intro exp first
    rw [(crit.clauses.eli5Clauses first {}).1, (blanked_eq_self_iff exp.value).mpr]
    exact (plain exp first).1
  · intro exp first
    exact (crit.clauses.eli5Clauses first {}).2.1
  · intro exp first
    rw [(crit.clauses.eli5Clauses first {}).2.2]
    cases last : classBefore crit.rels with
    | none => rfl
    | some before =>
        have same := (blanked_eq_self_iff before.value).mpr ((plain exp first).2 before last)
        rw [Option.map_some, Option.getD_some, same]
        rfl

end Simplified

/-- `eli5` gives the literals of the first handled clause and of the class clause before it
exactly when neither has a parenthesis. It never fails. -/
theorem simplified_iff (lead : Blanks) (crit : SearchCrit) (trail : Blanks) :
    Simplified lead crit trail ↔
      ∀ exp ∈ handled crit.rels, Unparenthesized exp.value ∧
        ∀ before ∈ classBefore crit.rels, Unparenthesized before.value :=
  ⟨fun simplified _ first => simplified.unparenthesized first, simplified_of_unparenthesized⟩

example : PlgWithSlave.eli5
    "upnp:class derivedfrom \"object.item\" and ((dc:title = \"say \\\"no\\\"\") )" =
      some ⟨"track", "say \"no\"", "object.item", "track"⟩ := by
  decide

def noBlanks : Blanks := ⟨[], by simp⟩

def oneBlank : Gap := ⟨⟨[' '], by simp [IsBlank]⟩, by simp⟩

/-- `dc:title contains "value"`. -/
def titleContains (value : List Char) : SearchCrit :=
  .rel ⟨⟨"dc:title".toList, by simp, by simp [IsBlank], by simp, by simp [parens]⟩, oneBlank,
    ⟨"contains".toList, by simp, by simp [IsBlank], by simp, by simp [parens]⟩, oneBlank, value⟩

theorem title_parentheses_blanked :
    ¬ Simplified noBlanks (titleContains "Live (Disc 1)".toList) noBlanks := by
  intro simplified
  have plain := simplified.unparenthesized rfl
  exact absurd (plain.1 '(' (by decide)) (by decide)

end SearchCriteria
end Upmpdcli
