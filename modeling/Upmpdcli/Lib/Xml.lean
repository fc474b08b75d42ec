import Mathlib.Data.List.Basic
import Mathlib.Tactic.Tauto

set_option autoImplicit false

/- How an XML parser reads the content of an element: a machine which goes through the text once
and gives the tags and the characters in their order. -/
namespace Xml

abbrev Str := List Char

/-- `Char` of the grammar. -/
def legal (c : Char) : Bool :=
  c = '\t' || c = '\n' || c = '\r' || (0x20 ≤ c.toNat && c.toNat ≠ 0xfffe && c.toNat ≠ 0xffff)

def isSpace (c : Char) : Bool := c = ' ' || c = '\t' || c = '\n' || c = '\r'

/-- The end of a line, however it is written. -/
def lines : Str → Str
  | '\r' :: '\n' :: rest => '\n' :: lines rest
  | '\r' :: rest => '\n' :: lines rest
  | c :: rest => c :: lines rest
  | [] => []

/-- The characters from the first to the last of some range. -/
def within (ranges : List (Nat × Nat)) (c : Char) : Bool :=
  ranges.any fun range => range.1 ≤ c.toNat && c.toNat ≤ range.2

/-- `NameStartChar`. -/
def nameStart (c : Char) : Bool :=
  c = ':' || c = '_' || c.isAlpha ||
    within [(0xc0, 0xd6), (0xd8, 0xf6), (0xf8, 0x2ff), (0x370, 0x37d), (0x37f, 0x1fff),
      (0x200c, 0x200d), (0x2070, 0x218f), (0x2c00, 0x2fef), (0x3001, 0xd7ff), (0xf900, 0xfdcf),
      (0xfdf0, 0xfffd), (0x10000, 0xeffff)] c

/-- `NameChar`. -/
def nameChar (c : Char) : Bool :=
  nameStart c || c = '-' || c = '.' || c.isDigit ||
    within [(0xb7, 0xb7), (0x300, 0x36f), (0x203f, 0x2040)] c

def digitValue (c : Char) : Nat :=
  if c.isDigit then c.toNat - '0'.toNat
  else if 'a' ≤ c ∧ c ≤ 'f' then c.toNat - 'a'.toNat + 10
  else if 'A' ≤ c ∧ c ≤ 'F' then c.toNat - 'A'.toNat + 10
  else 16

/-- The character with a number, of which there must be a digit. -/
def numbered (base : Nat) (digits : Str) : Option Char :=
  if digits ≠ [] ∧ digits.all fun c => digitValue c < base then
    let n := digits.foldl (fun n c => n * base + digitValue c) 0
    if n.isValidChar ∧ legal (Char.ofNat n) then some (Char.ofNat n) else none
  else none

def entities : List (Str × Char) :=
  [("amp".toList, '&'), ("lt".toList, '<'), ("gt".toList, '>'), ("quot".toList, '"'),
    ("apos".toList, '\'')]

/-- What a reference refers to, from what is between the `&` and the `;`. -/
def refChar : Str → Option Char
  | '#' :: 'x' :: digits => numbered 16 digits
  | '#' :: digits => numbered 10 digits
  | name => entities.lookup name

/-- The value of an attribute. `body` is what has been read of a reference. -/
def attValue : (body : Option Str) → Str → Option Str
  | none, [] => some []
  | some _, [] => none
  | none, c :: rest =>
      if c = '<' then none
      else if c = '&' then attValue (some []) rest
      else (attValue none rest).map ((if isSpace c then ' ' else c) :: ·)
  | some body, c :: rest =>
      if c = ';' then (refChar body).bind fun found => (attValue none rest).map (found :: ·)
      else attValue (some (body ++ [c])) rest

abbrev Attributes := List (Str × Str)

/-- What the machine gives. -/
inductive Event
  | start (name : Str) (attributes : Attributes)
  | char (c : Char)
  | stop (name : Str)
deriving DecidableEq

/-- Where the machine is. The names and the values are those which it has begun to read. -/
inductive Mode
  /-- In the text, behind some brackets. -/
  | text (brackets : Nat)
  | reference (body : Str)
  | markup
  | startName (name : Str)
  | tag (name : Str) (attributes : Attributes) (spaced : Bool)
  | attName (name : Str) (attributes : Attributes) (att : Str)
  | attEqual (name : Str) (attributes : Attributes) (att : Str)
  | attQuote (name : Str) (attributes : Attributes) (att : Str)
  | attText (name : Str) (attributes : Attributes) (att : Str) (quote : Char) (raw : Str)
  | empty (name : Str) (attributes : Attributes)
  | stopName (name : Str)
  | stopSpace (name : Str)
  | bang (seen : Str)
  | comment (dashes : Nat)
  | cdata (brackets : Nat)
  | target (name : Str)
  | instruction (question : Bool)
deriving DecidableEq

/-- A character behind the name of a start tag, behind an attribute or behind a space. -/
def tagStep (name : Str) (attributes : Attributes) (spaced : Bool) (c : Char) :
    Option (Mode × List Event) :=
  if isSpace c then some (.tag name attributes true, [])
  else if c = '>' then some (.text 0, [.start name attributes])
  else if c = '/' then some (.empty name attributes, [])
  else if spaced ∧ nameStart c then some (.attName name attributes [c], [])
  else none

/-- One character. -/
def step : Mode → Char → Option (Mode × List Event)
  | .text brackets, c =>
      if c = '<' then some (.markup, [])
      else if c = '&' then some (.reference [], [])
      else if c = '>' ∧ 2 ≤ brackets then none
      else some (.text (if c = ']' then brackets + 1 else 0), [.char c])
  | .reference body, c =>
      if c = ';' then (refChar body).map fun found => (.text 0, [.char found])
      else some (.reference (body ++ [c]), [])
  | .markup, c =>
      if c = '/' then some (.stopName [], [])
      else if c = '!' then some (.bang [], [])
      else if c = '?' then some (.target [], [])
      else if nameStart c then some (.startName [c], [])
      else none
  | .startName name, c =>
      if nameChar c then some (.startName (name ++ [c]), []) else tagStep name [] false c
  | .tag name attributes spaced, c => tagStep name attributes spaced c
  | .attName name attributes att, c =>
      if nameChar c then some (.attName name attributes (att ++ [c]), [])
      else if c = '=' then some (.attQuote name attributes att, [])
      else if isSpace c then some (.attEqual name attributes att, [])
      else none
  | .attEqual name attributes att, c =>
      if c = '=' then some (.attQuote name attributes att, [])
      else if isSpace c then some (.attEqual name attributes att, [])
      else none
  | .attQuote name attributes att, c =>
      if c = '"' ∨ c = '\'' then some (.attText name attributes att c [], [])
      else if isSpace c then some (.attQuote name attributes att, [])
      else none
  | .attText name attributes att quote raw, c =>
      if c = quote then
        if attributes.any fun other => other.1 = att then none
        else (attValue none raw).map fun value =>
          (.tag name (attributes ++ [(att, value)]) false, [])
      else some (.attText name attributes att quote (raw ++ [c]), [])
  | .empty name attributes, c =>
      if c = '>' then some (.text 0, [.start name attributes, .stop name]) else none
  | .stopName name, c =>
      if (if name = [] then nameStart c else nameChar c) then some (.stopName (name ++ [c]), [])
      else if name = [] then none
      else if c = '>' then some (.text 0, [.stop name])
      else if isSpace c then some (.stopSpace name, [])
      else none
  | .stopSpace name, c =>
      if c = '>' then some (.text 0, [.stop name])
      else if isSpace c then some (.stopSpace name, [])
      else none
  | .bang seen, c =>
      if seen ++ [c] = "--".toList then some (.comment 0, [])
      else if seen ++ [c] = "[CDATA[".toList then some (.cdata 0, [])
      else if seen ++ [c] = "-".toList ∨ (seen ++ [c]).isPrefixOf "[CDATA[".toList then
        some (.bang (seen ++ [c]), [])
      else none
  | .comment dashes, c =>
      if 2 ≤ dashes then if c = '>' then some (.text 0, []) else none
      else some (.comment (if c = '-' then dashes + 1 else 0), [])
  | .cdata brackets, c =>
      if c = ']' then
        if brackets = 2 then some (.cdata 2, [.char ']']) else some (.cdata (brackets + 1), [])
      else if c = '>' ∧ brackets = 2 then some (.text 0, [])
      else some (.cdata 0, List.replicate brackets (.char ']') ++ [.char c])
  | .target name, c =>
      if (if name = [] then nameStart c else nameChar c) then some (.target (name ++ [c]), [])
      else if name = [] ∨ name.map Char.toLower = "xml".toList then none
      else if c = '?' then some (.instruction true, [])
      else if isSpace c then some (.instruction false, [])
      else none
  | .instruction question, c =>
      if question ∧ c = '>' then some (.text 0, []) else some (.instruction (c = '?'), [])

/-- A text. -/
def run : Mode → Str → Option (Mode × List Event)
  | m, [] => some (m, [])
  | m, c :: rest =>
      (step m c).bind fun next => (run next.1 rest).map fun last => (last.1, next.2 ++ last.2)

/-- The content of an element: characters and elements in a row. -/
inductive Content
  | nil
  | char (c : Char) (rest : Content)
  | element (name : Str) (attributes : Attributes) (children rest : Content)
deriving DecidableEq

namespace Content

def ofText (text : Str) : Content := text.foldr char nil

def events : Content → List Event
  | nil => []
  | char c rest => .char c :: rest.events
  | element name attributes children rest =>
      .start name attributes :: (children.events ++ .stop name :: rest.events)

end Content

/-- The text is well-formed and has this content. -/
def Reads (text : Str) (content : Content) : Prop :=
  text.all legal ∧ ∃ brackets, run (.text 0) (lines text) = some (.text brackets, content.events)

section Run

variable {m n k : Mode} {c : Char} {first rest text : Str} {events more : List Event}

theorem run_of_step (one : step m c = some (n, [])) (rest : Str) :
    run m (c :: rest) = run n rest := by
  rw [run, one, Option.bind_some]
  cases run n rest with
  | none => rfl
  | some last => rfl

theorem run_append (m : Mode) (first rest : Str) : run m (first ++ rest) =
    (run m first).bind fun one => (run one.1 rest).map fun last => (last.1, one.2 ++ last.2) := by
  induction first generalizing m with
  | nil =>
      rw [List.nil_append, run, Option.bind_some]
      cases run m rest with
      | none => rfl
      | some last => rfl
  | cons c first ih =>
      rw [List.cons_append, run, run]
      cases step m c with
      | none => rfl
      | some next =>
          rw [Option.bind_some, Option.bind_some, ih]
          cases run next.1 first with
          | none => rfl
          | some one =>
              simp only [Option.bind_some, Option.map_some, Option.map_map, Function.comp_def,
                List.append_assoc]

theorem run_append_of (one : run m first = some (n, events)) (rest : Str) : run m (first ++ rest) =
    (run n rest).map fun last => (last.1, events ++ last.2) := by
  rw [run_append, one, Option.bind_some]

/-- Behind a text whose events are known. -/
theorem run_append_iff (one : run m first = some (n, events)) :
    run m (first ++ rest) = some (k, events ++ more) ↔ run n rest = some (k, more) := by
  rw [run_append_of one]
  cases run n rest with
  | none => simp
  | some last =>
      rw [Option.map_some, Option.some_inj, Option.some_inj, Prod.ext_iff, Prod.ext_iff]
      exact and_congr_right fun _ => List.append_right_inj events

end Run

section Lines

theorem lines_cons {c : Char} (plain : c ≠ '\r') (rest : Str) :
    lines (c :: rest) = c :: lines rest := by
  rw [lines.eq_3]
  · intro rest' same
    exact absurd same plain
  · exact plain

theorem lines_append {c : Char} (plain : c ≠ '\r') (feed : c ≠ '\n') (text rest : Str) :
    lines (text ++ c :: rest) = lines text ++ c :: lines rest := by
  induction text using lines.induct with
  | case1 text ih => exact congrArg ('\n' :: ·) ih
  | case2 text alone ih =>
      have alone' : ∀ other, text ++ c :: rest = '\n' :: other → False := by
        intro other same
        cases text with
        | nil => exact feed (List.cons.inj same).1
        | cons d text => exact alone text (by rw [(List.cons.inj same).1])
      rw [List.cons_append, lines.eq_2 _ alone', lines.eq_2 _ alone, ih, List.cons_append]
  | case3 d text pair alone ih =>
      rw [List.cons_append, lines_cons alone, lines_cons alone, ih, List.cons_append]
  | case4 => exact lines_cons plain rest

/-- The end of a line as one character. -/
def feed (c : Char) : Char := if c = '\r' then '\n' else c

/-- The ends of lines do not make a text longer, and where it is as long each of them is one
character. -/
theorem lines_length (text : Str) : (lines text).length ≤ text.length ∧
    ((lines text).length = text.length → lines text = text.map feed) := by
  induction text using lines.induct with
  | case1 text ih =>
      rw [lines.eq_1]
      simp only [List.length_cons]
      constructor
      · omega
      · intro same
        omega
  | case2 text alone ih =>
      rw [lines.eq_2 _ alone]
      simp only [List.length_cons]
      constructor
      · omega
      · intro same
        rw [ih.2 (by omega)]
        rfl
  | case3 d text pair alone ih =>
      rw [lines_cons alone]
      simp only [List.length_cons]
      constructor
      · omega
      · intro same
        rw [ih.2 (by omega), List.map_cons, feed, if_neg alone]
  | case4 => exact ⟨Nat.le_refl 0, fun _ => rfl⟩

theorem lines_eq_self_iff {text : Str} : lines text = text ↔ '\r' ∉ text := by
  constructor
  · intro same member
    have mapped := (lines_length text).2 (congrArg List.length same)
    have fixed : text.map feed = text.map id := by rw [← mapped, same, List.map_id]
    exact absurd (List.map_inj_left.mp fixed _ member) (by decide)
  · intro absent
    induction text with
    | nil => rfl
    | cons c text ih =>
        rw [List.mem_cons, not_or] at absent
        rw [lines_cons (Ne.symm absent.1), ih absent.2]

end Lines

section Values

/-- A text which is the value of an attribute as it stands. -/
def Plain (value : Str) : Prop := ∀ c ∈ value, c ∉ ['"', '<', '&', '\t', '\n', '\r']

instance (value : Str) : Decidable (Plain value) :=
  decidable_of_iff (value.all fun c => !(['"', '<', '&', '\t', '\n', '\r'].elem c)) <| by
    simp only [List.all_eq_true, Plain, Bool.not_eq_true', List.elem_eq_mem, decide_eq_false_iff_not]

def blank (c : Char) : Char := if isSpace c then ' ' else c

/-- A value is not longer than its text, and where it is as long the text has no reference. -/
theorem attValue_length (body : Option Str) {text value : Str}
    (read : attValue body text = some value) : value.length ≤ text.length ∧
      (value.length = text.length → body = none →
        value = text.map blank ∧ '<' ∉ text ∧ '&' ∉ text) := by
  induction text generalizing body value with
  | nil =>
      cases body with
      | none =>
          cases read
          simp
      | some body => cases read
  | cons c text ih =>
      cases body with
      | none =>
          rw [attValue] at read
          split at read
          · cases read
          · rename_i not_less
            split at read
            · have short := (ih _ read).1
              simp only [List.length_cons]
              constructor
              · omega
              · intro same
                omega
            · rename_i not_and
              obtain ⟨rest, later, rfl⟩ := Option.map_eq_some_iff.mp read
              obtain ⟨short, full⟩ := ih _ later
              simp only [List.length_cons]
              constructor
              · omega
              · intro same _
                obtain ⟨blanks, less, ands⟩ := full (by omega) rfl
                refine ⟨by rw [blanks]; rfl, ?_, ?_⟩
                · simp [Ne.symm not_less, less]
                · simp [Ne.symm not_and, ands]
      | some body =>
          rw [attValue] at read
          split at read
          · obtain ⟨found, -, read⟩ := Option.bind_eq_some_iff.mp read
            obtain ⟨rest, later, rfl⟩ := Option.map_eq_some_iff.mp read
            have short := (ih _ later).1
            simp only [List.length_cons]
            exact ⟨by omega, fun _ impossible => nomatch impossible⟩
          · have short := (ih _ read).1
            simp only [List.length_cons]
            exact ⟨by omega, fun _ impossible => nomatch impossible⟩

theorem attValue_of_plain {value : Str} (plain : Plain value) :
    attValue none value = some value := by
  induction value with
  | nil => rfl
  | cons c value ih =>
      have first := plain c List.mem_cons_self
      simp only [List.mem_cons, List.not_mem_nil, or_false, not_or] at first
      rw [attValue, if_neg first.2.1, if_neg first.2.2.1,
        ih fun d member => plain d (List.mem_cons_of_mem c member)]
      by_cases space : c = ' '
      · rw [space]
        rfl
      · have not_space : isSpace c = false := by
          unfold isSpace
          simp [space, first]
        rw [not_space]
        rfl

theorem lines_of_plain {value : Str} (plain : Plain value) : lines value = value := by
  apply lines_eq_self_iff.mpr
  intro member
  exact plain _ member (by decide)

/-- Only such a text is its own value. -/
theorem plain_of_attValue {value : Str} (read : attValue none (lines value) = some value)
    (closed : '"' ∉ lines value) : Plain value := by
  obtain ⟨short, full⟩ := attValue_length none read
  obtain ⟨short', full'⟩ := lines_length value
  obtain ⟨blanks, less, ands⟩ := full (by omega) rfl
  have fed := full' (by omega)
  have fixed : value.map (blank ∘ feed) = value.map id := by
    rw [← List.map_map, ← fed, ← blanks, List.map_id]
  intro c member special
  have same : blank (feed c) = c := List.map_inj_left.mp fixed c member
  have there : feed c ∈ lines value := by
    rw [fed]
    exact List.mem_map_of_mem member
  simp only [List.mem_cons, List.not_mem_nil, or_false] at special
  rcases special with rfl | rfl | rfl | rfl | rfl | rfl
  · exact closed there
  · exact less there
  · exact ands there
  · exact absurd same (by decide)
  · exact absurd same (by decide)
  · exact absurd same (by decide)

end Values

section Tags

/-- A start tag which is being read, with the attributes which it has so far. -/
def Mode.opening : Mode → Option (Str × Attributes)
  | tag name attributes _ => some (name, attributes)
  | attName name attributes _ => some (name, attributes)
  | attEqual name attributes _ => some (name, attributes)
  | attQuote name attributes _ => some (name, attributes)
  | attText name attributes _ _ _ => some (name, attributes)
  | empty name attributes => some (name, attributes)
  | _ => none

theorem opening_tagStep {name : Str} {attributes : Attributes} {spaced : Bool} {c : Char} {n : Mode}
    {events : List Event} (one : tagStep name attributes spaced c = some (n, events)) :
    (events = [] ∧ n.opening = some (name, attributes)) ∨
      ∃ more, events = .start name attributes :: more := by
  unfold tagStep at one
  split at one
  · cases one
    exact .inl ⟨rfl, rfl⟩
  · split at one
    · cases one
      exact .inr ⟨[], rfl⟩
    · split at one
      · cases one
        exact .inl ⟨rfl, rfl⟩
      · split at one
        · cases one
          exact .inl ⟨rfl, rfl⟩
        · cases one

/-- A start tag keeps its name and its attributes until it is given. -/
theorem opening_step {m n : Mode} {name : Str} {attributes : Attributes} {c : Char}
    {events : List Event} (opening : m.opening = some (name, attributes))
    (one : step m c = some (n, events)) :
    (events = [] ∧ ∃ others, n.opening = some (name, attributes ++ others)) ∨
      ∃ more, events = .start name attributes :: more := by
  have same : ∀ n : Mode, n.opening = some (name, attributes) →
      ∃ others, n.opening = some (name, attributes ++ others) := by
    intro n there
    exact ⟨[], by rw [there, List.append_nil]⟩
  cases m with
  | tag =>
      cases opening
      exact (opening_tagStep one).imp (fun kept => ⟨kept.1, same n kept.2⟩) id
  | attName =>
      cases opening
      rw [step] at one
      split at one
      · cases one
        exact .inl ⟨rfl, same _ rfl⟩
      · split at one
        · cases one
          exact .inl ⟨rfl, same _ rfl⟩
        · split at one <;> cases one
          exact .inl ⟨rfl, same _ rfl⟩
  | attEqual =>
      cases opening
      rw [step] at one
      split at one
      · cases one
        exact .inl ⟨rfl, same _ rfl⟩
      · split at one <;> cases one
        exact .inl ⟨rfl, same _ rfl⟩
  | attQuote =>
      cases opening
      rw [step] at one
      split at one
      · cases one
        exact .inl ⟨rfl, same _ rfl⟩
      · split at one <;> cases one
        exact .inl ⟨rfl, same _ rfl⟩
  | attText _ _ att quote raw =>
      cases opening
      rw [step] at one
      split at one
      · split at one
        · cases one
        · obtain ⟨value, -, made⟩ := Option.map_eq_some_iff.mp one
          cases made
          exact .inl ⟨rfl, [(att, value)], rfl⟩
      · cases one
        exact .inl ⟨rfl, same _ rfl⟩
  | empty =>
      cases opening
      rw [step] at one
      split at one <;> cases one
      exact .inr ⟨_, rfl⟩
  | _ => cases opening

/-- The next event is the start tag which is being read. -/
theorem first_event {m k : Mode} {name : Str} {attributes : Attributes} {text : Str} {event : Event}
    {more : List Event} (opening : m.opening = some (name, attributes))
    (ran : run m text = some (k, event :: more)) :
    ∃ others, event = .start name (attributes ++ others) := by
  induction text generalizing m attributes with
  | nil => cases ran
  | cons c text ih =>
      rw [run] at ran
      obtain ⟨⟨n, events⟩, one, ran⟩ := Option.bind_eq_some_iff.mp ran
      obtain ⟨last, later, made⟩ := Option.map_eq_some_iff.mp ran
      rcases opening_step opening one with ⟨rfl, others, kept⟩ | ⟨behind, rfl⟩
      · obtain ⟨rfl, same⟩ := Prod.mk.inj made
        rw [List.nil_append] at same
        obtain ⟨others', given⟩ := ih kept (later.trans (congrArg some (Prod.ext rfl same)))
        exact ⟨others ++ others', by rw [given, List.append_assoc]⟩
      · obtain ⟨-, same⟩ := Prod.mk.inj made
        exact ⟨[], by rw [List.append_nil]; exact (List.cons.inj same).1.symm⟩

/-- The texts which are names. -/
def isName : Str → Bool
  | [] => false
  | c :: rest => nameStart c && rest.all nameChar

theorem run_startName (name : Str) {more : Str} (chars : more.all nameChar) (rest : Str) :
    run (.startName name) (more ++ rest) = run (.startName (name ++ more)) rest := by
  induction more generalizing name with
  | nil => rw [List.append_nil, List.nil_append]
  | cons c more ih =>
      rw [List.all_cons, Bool.and_eq_true] at chars
      have one : step (.startName name) c = some (.startName (name ++ [c]), []) := if_pos chars.1
      rw [List.cons_append, run_of_step one, ih _ chars.2, List.append_assoc]
      rfl

theorem run_attName (name : Str) (attributes : Attributes) (att : Str) {more : Str}
    (chars : more.all nameChar) (rest : Str) :
    run (.attName name attributes att) (more ++ rest) =
      run (.attName name attributes (att ++ more)) rest := by
  induction more generalizing att with
  | nil => rw [List.append_nil, List.nil_append]
  | cons c more ih =>
      rw [List.all_cons, Bool.and_eq_true] at chars
      have one : step (.attName name attributes att) c =
          some (.attName name attributes (att ++ [c]), []) := if_pos chars.1
      rw [List.cons_append, run_of_step one, ih _ chars.2, List.append_assoc]
      rfl

theorem run_stopName {name : Str} (begun : name ≠ []) {more : Str} (chars : more.all nameChar)
    (rest : Str) : run (.stopName name) (more ++ rest) = run (.stopName (name ++ more)) rest := by
  induction more generalizing name with
  | nil => rw [List.append_nil, List.nil_append]
  | cons c more ih =>
      rw [List.all_cons, Bool.and_eq_true] at chars
      have one : step (.stopName name) c = some (.stopName (name ++ [c]), []) := by
        rw [step, if_neg begun, if_pos chars.1]
      rw [List.cons_append, run_of_step one, ih (by simp) chars.2, List.append_assoc]
      rfl

/-- From any text to behind the name of a start tag. -/
theorem run_start (brackets : Nat) {name : Str} (is_name : isName name) (rest : Str) :
    run (.text brackets) ('<' :: (name ++ rest)) = run (.startName name) rest := by
  cases name with
  | nil => cases is_name
  | cons c name =>
      obtain ⟨first, others⟩ := Bool.and_eq_true_iff.mp is_name
      have other : ∀ d, nameStart d = false → c ≠ d := by
        rintro d none rfl
        rw [none] at first
        cases first
      have one : step .markup c = some (.startName [c], []) := by
        rw [step, if_neg (other '/' (by decide)), if_neg (other '!' (by decide)),
          if_neg (other '?' (by decide)), if_pos first]
      have less : step (.text brackets) '<' = some (.markup, []) := rfl
      rw [run_of_step less, List.cons_append, run_of_step one, run_startName _ others]
      rfl

/-- A whole end tag. -/
theorem run_stop (brackets : Nat) {name : Str} (is_name : isName name) (rest : Str) :
    run (.text brackets) ('<' :: '/' :: (name ++ '>' :: rest)) =
      (run (.text 0) rest).map fun last => (last.1, .stop name :: last.2) := by
  cases name with
  | nil => cases is_name
  | cons c name =>
      obtain ⟨first, others⟩ := Bool.and_eq_true_iff.mp is_name
      have less : step (.text brackets) '<' = some (.markup, []) := rfl
      have slash : step .markup '/' = some (.stopName [], []) := rfl
      have one : step (.stopName []) c = some (.stopName [c], []) := if_pos first
      have greater : step (.stopName (c :: name)) '>' = some (.text 0, [.stop (c :: name)]) := by
        rw [step]
        rfl
      rw [run_of_step less, run_of_step slash, List.cons_append, run_of_step one,
        run_stopName (by simp) others]
      change run (.stopName (c :: name)) _ = _
      rw [run, greater]
      rfl

/-- An attribute as it is printed. -/
def printed (att : Str × Str) : Str := ' ' :: (att.1 ++ '=' :: '"' :: (att.2 ++ ['"']))

/-- Behind the name or behind an attribute of a start tag. -/
structure Mode.Behind (m : Mode) (name : Str) (attributes : Attributes) : Prop where
  space : step m ' ' = some (.tag name attributes true, [])
  close : step m '>' = some (.text 0, [.start name attributes])

theorem behind_name (name : Str) : (Mode.startName name).Behind name [] := ⟨rfl, rfl⟩

theorem behind_attribute (name : Str) (attributes : Attributes) (spaced : Bool) :
    (Mode.tag name attributes spaced).Behind name attributes := ⟨rfl, rfl⟩

theorem run_attText (name : Str) (attributes : Attributes) (att raw : Str) {text : Str}
    (closed : '"' ∉ text) (rest : Str) :
    run (.attText name attributes att '"' raw) (text ++ rest) =
      run (.attText name attributes att '"' (raw ++ text)) rest := by
  induction text generalizing raw with
  | nil => rw [List.append_nil, List.nil_append]
  | cons c text ih =>
      rw [List.mem_cons, not_or] at closed
      have one : step (.attText name attributes att '"' raw) c =
          some (.attText name attributes att '"' (raw ++ [c]), []) := if_neg (Ne.symm closed.1)
      rw [List.cons_append, run_of_step one, ih _ closed.2, List.append_assoc]
      rfl

/-- An attribute with its value up to the first quote. -/
theorem run_attribute {m : Mode} {name : Str} {attributes : Attributes}
    (behind : m.Behind name attributes) {att : Str} (is_name : isName att)
    (fresh : att ∉ attributes.map Prod.fst) {text : Str} (closed : '"' ∉ text) (rest : Str) :
    run m (' ' :: (att ++ '=' :: '"' :: (text ++ '"' :: rest))) =
      (attValue none text).bind fun value =>
        run (.tag name (attributes ++ [(att, value)]) false) rest := by
  cases att with
  | nil => cases is_name
  | cons c att =>
      obtain ⟨first, others⟩ := Bool.and_eq_true_iff.mp is_name
      have other : ∀ d, nameStart d = false → c ≠ d := by
        rintro d none rfl
        rw [none] at first
        cases first
      have not_space : isSpace c = false := by
        unfold isSpace
        simp [other ' ' (by decide), other '\t' (by decide), other '\n' (by decide),
          other '\r' (by decide)]
      have one : step (.tag name attributes true) c = some (.attName name attributes [c], []) := by
        rw [step, tagStep, not_space, if_neg Bool.false_ne_true, if_neg (other '>' (by decide)),
          if_neg (other '/' (by decide)), if_pos ⟨rfl, first⟩]
      have equal : step (.attName name attributes (c :: att)) '=' =
          some (.attQuote name attributes (c :: att), []) := rfl
      have quote : step (.attQuote name attributes (c :: att)) '"' =
          some (.attText name attributes (c :: att) '"' [], []) := rfl
      rw [run_of_step behind.space, List.cons_append, run_of_step one, run_attName _ _ _ others]
      change run (.attName name attributes (c :: att)) _ = _
      have absent : (attributes.any fun other => other.1 = c :: att) = false := by
        rw [List.any_eq_false]
        intro other member same
        exact fresh (of_decide_eq_true same ▸ List.mem_map_of_mem member)
      rw [run_of_step equal, run_of_step quote, run_attText _ _ _ _ closed, List.nil_append, run,
        step, if_pos rfl, absent, if_neg Bool.false_ne_true]
      cases attValue none text with
      | none => rfl
      | some value =>
          rw [Option.map_some, Option.bind_some, Option.bind_some]
          cases run (.tag name (attributes ++ [(c :: att, value)]) false) rest with
          | none => rfl
          | some last => rfl

/-- A text up to its first quote. -/
theorem exists_closed (text rest : Str) : ∃ first behind,
    text ++ '"' :: rest = first ++ '"' :: behind ∧ '"' ∉ first ∧ first.length ≤ text.length ∧ (first.length = text.length → first = text) := by
  by_cases closed : '"' ∉ text
  · exact ⟨text, rest, rfl, closed, Nat.le_refl _, fun _ => rfl⟩
  · obtain ⟨first, behind, rfl, before⟩ := List.eq_append_cons_of_mem (not_not.mp closed)
    refine ⟨first, behind ++ '"' :: rest, ?_, before, ?_, ?_⟩
    · rw [List.append_assoc, List.cons_append]
    · rw [List.length_append]
      omega
    · intro same
      rw [List.length_append, List.length_cons] at same
      omega

theorem lines_name {name : Str} (is_name : name.all nameChar) (rest : Str) :
    lines (name ++ rest) = name ++ lines rest := by
  induction name with
  | nil => rfl
  | cons c name ih =>
      rw [List.all_cons, Bool.and_eq_true] at is_name
      have plain : c ≠ '\r' := by
        rintro rfl
        exact absurd is_name.1 (by decide)
      rw [List.cons_append, lines_cons plain, ih is_name.2, List.cons_append]

theorem nameChar_of_isName {name : Str} (is_name : isName name) : name.all nameChar := by
  cases name with
  | nil => cases is_name
  | cons c name =>
      obtain ⟨first, others⟩ := Bool.and_eq_true_iff.mp is_name
      rw [List.all_cons, others, Bool.and_true]
      unfold nameChar
      rw [first]
      rfl

theorem lines_printed {att : Str × Str} (is_name : isName att.1) (rest : Str) :
    lines (printed att ++ rest) =
      ' ' :: (att.1 ++ '=' :: '"' :: (lines att.2 ++ '"' :: lines rest)) := by
  unfold printed
  rw [List.cons_append, List.append_assoc, List.cons_append, List.cons_append, List.append_assoc,
    List.singleton_append, lines_cons (by decide), lines_name (nameChar_of_isName is_name),
    lines_cons (by decide), lines_cons (by decide), lines_append (by decide) (by decide)]

/-- What is read up to the first quote is the value, when the start tag has this value. -/
theorem value_of_run {m k : Mode} {name : Str} {before attributes : Attributes} {att : Str × Str}
    (is_name : isName att.1) {first rest : Str} {more : List Event} (behind : m.Behind name before)
    (fresh : att.1 ∉ before.map Prod.fst) (closed : '"' ∉ first)
    (ran : run m (' ' :: (att.1 ++ '=' :: '"' :: (first ++ '"' :: rest))) =
      some (k, .start name (before ++ att :: attributes) :: more)) :
    attValue none first = some att.2 ∧ run (.tag name (before ++ [att]) false) rest =
      some (k, .start name (before ++ att :: attributes) :: more) := by
  rw [run_attribute behind is_name fresh closed] at ran
  obtain ⟨value, read, ran⟩ := Option.bind_eq_some_iff.mp ran
  obtain ⟨others, given⟩ := first_event rfl ran
  have same : att = (att.1, value) := by
    have lists := (Event.start.inj given).2
    rw [List.append_assoc, List.singleton_append] at lists
    exact (List.cons.inj (List.append_cancel_left lists)).1
  rw [← same] at ran
  have is_value : att.2 = value := congrArg Prod.snd same
  exact ⟨by rw [read, is_value], ran⟩

/-- The value which is read of an attribute, when that is the one which is printed. -/
theorem plain_of_run {m k : Mode} {name : Str} {before attributes : Attributes} {att : Str × Str}
    (is_name : isName att.1) {rest : Str} {more : List Event} (behind : m.Behind name before)
    (fresh : att.1 ∉ before.map Prod.fst)
    (ran : run m (' ' :: (att.1 ++ '=' :: '"' :: (lines att.2 ++ '"' :: rest))) =
      some (k, .start name (before ++ att :: attributes) :: more)) : Plain att.2 := by
  obtain ⟨first, later, split, closed, short, whole⟩ := exists_closed (lines att.2) rest
  rw [split] at ran
  obtain ⟨read, -⟩ := value_of_run is_name behind fresh closed ran
  have short' := (attValue_length none read).1
  have short'' := (lines_length att.2).1
  have all : first = lines att.2 := whole (by omega)
  rw [all] at read closed
  exact plain_of_attValue read closed

/-- A value which is not closed is not what is read: either the value which is read ends earlier, or
there is no space behind the quote which opens the next one. -/
theorem run_unclosed {m : Mode} {name : Str} {before : Attributes} {att : Str × Str}
    (is_name : isName att.1) (behind : m.Behind name before)
    (fresh : att.1 ∉ before.map Prod.fst) {next : Str} (unquoted : '"' ∉ next) {c : Char}
    (inside : tagStep name (before ++ [att]) false c = none) (rest : Str) (k : Mode)
    (attributes : Attributes) (more : List Event) :
    run m (' ' :: (att.1 ++ '=' :: '"' :: (lines att.2 ++ (next ++ '"' :: c :: rest)))) ≠
      some (k, .start name (before ++ att :: attributes) :: more) := by
  intro ran
  by_cases closed : '"' ∉ lines att.2
  · have closed' : '"' ∉ lines att.2 ++ next := by
      rw [List.mem_append]
      tauto
    rw [← List.append_assoc] at ran
    obtain ⟨-, ran⟩ := value_of_run is_name behind fresh closed' ran
    have stuck : step (.tag name (before ++ [att]) false) c = none := inside
    rw [run, stuck] at ran
    cases ran
  · obtain ⟨first, later, split, before_quote⟩ := List.eq_append_cons_of_mem (not_not.mp closed)
    have short := (lines_length att.2).1
    rw [split] at ran short
    rw [List.append_assoc, List.cons_append] at ran
    obtain ⟨read, -⟩ := value_of_run is_name behind fresh before_quote ran
    have short' := (attValue_length none read).1
    rw [List.length_append, List.length_cons] at short
    omega

/-- A start tag gives its attributes exactly when their values are printed as they stand. -/
theorem attributes_iff {name : Str} {attributes : Attributes}
    (names : ∀ att ∈ attributes, isName att.1) {k : Mode} {more : List Event} (rest : Str)
    {m : Mode} {before : Attributes} (behind : m.Behind name before)
    (distinct : ((before ++ attributes).map Prod.fst).Nodup) :
    run m (lines (attributes.flatMap printed ++ '>' :: rest)) =
        some (k, .start name (before ++ attributes) :: more) ↔
      (∀ att ∈ attributes, Plain att.2) ∧ run (.text 0) (lines rest) = some (k, more) := by
  induction attributes generalizing m before with
  | nil =>
      have greater : lines ([] ++ '>' :: rest) = ['>'] ++ lines rest := rfl
      have given : run m ['>'] = some (.text 0, [.start name before]) := by
        rw [run, behind.close]
        rfl
      rw [List.flatMap_nil, greater, List.append_nil]
      refine (run_append_iff given).trans ?_
      simp
  | cons att attributes ih =>
      have is_name := names att List.mem_cons_self
      have fresh : att.1 ∉ before.map Prod.fst := by
        rw [List.map_append, List.map_cons] at distinct
        intro member
        exact (List.nodup_append.mp distinct).2.2 _ member _ List.mem_cons_self rfl
      have text : (att :: attributes).flatMap printed ++ '>' :: rest =
          printed att ++ (attributes.flatMap printed ++ '>' :: rest) := by
        rw [List.flatMap_cons, List.append_assoc]
      rw [text, lines_printed is_name]
      by_cases plain : Plain att.2
      · have closed : '"' ∉ att.2 := fun member => plain _ member (by decide)
        have joined : before ++ att :: attributes = (before ++ [att]) ++ attributes := by
          rw [List.append_assoc, List.singleton_append]
        rw [joined] at distinct ⊢
        rw [lines_of_plain plain, run_attribute behind is_name fresh closed,
          attValue_of_plain plain, Option.bind_some]
        refine (ih (fun other member => names other (List.mem_cons_of_mem att member))
          (behind_attribute name (before ++ [att]) false) distinct).trans ?_
        simp [plain]
      · apply iff_of_false
        · exact fun ran => plain (plain_of_run is_name behind fresh ran)
        · exact fun both => plain (both.1 att List.mem_cons_self)

end Tags

/-- A character with the five special ones as entities. -/
def quoteChar (c : Char) : Str :=
  if c = '&' then "&amp;".toList
  else if c = '<' then "&lt;".toList
  else if c = '>' then "&gt;".toList
  else if c = '"' then "&quot;".toList
  else if c = '\'' then "&apos;".toList
  else [c]

def quote (text : Str) : Str := text.flatMap quoteChar

section Text

theorem run_quoteChar (brackets : Nat) (c : Char) :
    ∃ brackets', run (.text brackets) (quoteChar c) = some (.text brackets', [.char c]) := by
  unfold quoteChar
  split
  · rename_i special
    exact ⟨0, by rw [special]; rfl⟩
  · rename_i not_and
    split
    · rename_i special
      exact ⟨0, by rw [special]; rfl⟩
    · rename_i not_less
      split
      · rename_i special
        exact ⟨0, by rw [special]; rfl⟩
      · rename_i not_greater
        split
        · rename_i special
          exact ⟨0, by rw [special]; rfl⟩
        · split
          · rename_i special
            exact ⟨0, by rw [special]; rfl⟩
          · have one : step (.text brackets) c =
                some (.text (if c = ']' then brackets + 1 else 0), [.char c]) := by
              rw [step, if_neg not_less, if_neg not_and, if_neg fun both => not_greater both.1]
            exact ⟨if c = ']' then brackets + 1 else 0, by rw [run, one]; rfl⟩

/-- A quoted text is read as it was. -/
theorem run_quote (brackets : Nat) (text : Str) :
    ∃ brackets', run (.text brackets) (quote text) = some (.text brackets', text.map .char) := by
  induction text generalizing brackets with
  | nil => exact ⟨brackets, rfl⟩
  | cons c text ih =>
      obtain ⟨between, one⟩ := run_quoteChar brackets c
      obtain ⟨behind, others⟩ := ih between
      have split : quote (c :: text) = quoteChar c ++ quote text := List.flatMap_cons
      rw [split, run_append_of one, others]
      exact ⟨behind, rfl⟩

theorem lines_quoteChar {c : Char} (plain : c ≠ '\r') (rest : Str) :
    lines (quoteChar c ++ rest) = quoteChar c ++ lines rest := by
  unfold quoteChar
  split
  · rfl
  · split
    · rfl
    · split
      · rfl
      · split
        · rfl
        · split
          · rfl
          · exact lines_cons plain rest

theorem quoteChar_head (c : Char) : ∃ d rest, quoteChar c = d :: rest ∧ (d = c ∨ d = '&') := by
  unfold quoteChar
  split
  · exact ⟨_, _, rfl, .inr rfl⟩
  · split
    · exact ⟨_, _, rfl, .inr rfl⟩
    · split
      · exact ⟨_, _, rfl, .inr rfl⟩
      · split
        · exact ⟨_, _, rfl, .inr rfl⟩
        · split
          · exact ⟨_, _, rfl, .inr rfl⟩
          · exact ⟨_, _, rfl, .inl rfl⟩

theorem lines_quote (text rest : Str) :
    lines (quote text ++ '<' :: rest) = quote (lines text) ++ '<' :: lines rest := by
  induction text using lines.induct with
  | case1 text ih => exact congrArg ('\n' :: ·) ih
  | case2 text alone ih =>
      have alone' : ∀ other, quote text ++ '<' :: rest = '\n' :: other → False := by
        intro other same
        cases text with
        | nil => cases same
        | cons d text =>
            obtain ⟨e, behind, head, kind⟩ := quoteChar_head d
            have split : quote (d :: text) = quoteChar d ++ quote text := List.flatMap_cons
            rw [split, head] at same
            have feed : e = '\n' := (List.cons.inj same).1
            rcases kind with here | and
            · exact alone text (by rw [← here, feed])
            · exact absurd (and.symm.trans feed) (by decide)
      have split : quote ('\r' :: text) = '\r' :: quote text := rfl
      rw [split, List.cons_append, lines.eq_2 _ alone', lines.eq_2 _ alone, ih]
      rfl
  | case3 d text pair alone ih =>
      have split (text : Str) : quote (d :: text) = quoteChar d ++ quote text := List.flatMap_cons
      rw [split, List.append_assoc, lines_quoteChar alone, lines_cons alone, split, ih,
        List.append_assoc]
  | case4 => rfl

/-- A text is given as this one exactly when its ends of lines make it this one. -/
theorem chars_iff {text other : Str} {name : Str} {events more : List Event} :
    text.map Event.char ++ .stop name :: events = other.map Event.char ++ .stop name :: more ↔
      text = other ∧ events = more := by
  induction text generalizing other with
  | nil =>
      cases other with
      | nil => simp
      | cons d other => simp
  | cons c text ih =>
      cases other with
      | nil => simp
      | cons d other => simp [ih, and_assoc]

/-- A piece of markup which, in the text of an element, gives these events exactly when something
holds. -/
def Prints (text : Str) (events : List Event) (holds : Prop) : Prop :=
  ∀ rest k more, run (.text 0) (lines (text ++ rest)) = some (k, events ++ more) ↔
    holds ∧ run (.text 0) (lines rest) = some (k, more)

theorem prints_nil : Prints [] [] True := fun _ _ _ => (and_iff_right trivial).symm

theorem Prints.append {first second : Str} {events more : List Event} {one two : Prop}
    (left : Prints first events one) (right : Prints second more two) :
    Prints (first ++ second) (events ++ more) (one ∧ two) := by
  intro rest k behind
  rw [List.append_assoc, List.append_assoc, left, right, and_assoc]

theorem Prints.of_iff {text : Str} {events : List Event} {one two : Prop}
    (prints : Prints text events one) (same : one ↔ two) : Prints text events two := by
  intro rest k more
  rw [prints, same]

/-- Pieces one behind the other. -/
theorem prints_flatMap {α : Type*} {text : α → Str} {events : α → List Event} {holds : α → Prop}
    {items : List α} (each : ∀ a ∈ items, Prints (text a) (events a) (holds a)) :
    Prints (items.flatMap text) (items.flatMap events) (∀ a ∈ items, holds a) := by
  induction items with
  | nil => exact prints_nil.of_iff (by simp)
  | cons a items ih =>
      have others := ih fun b member => each b (List.mem_cons_of_mem a member)
      exact ((each a List.mem_cons_self).append others).of_iff (by simp)

theorem prints_start {name : Str} (is_name : isName name) {attributes : Attributes}
    (names : ∀ att ∈ attributes, isName att.1) (distinct : (attributes.map Prod.fst).Nodup) :
    Prints ('<' :: (name ++ attributes.flatMap printed ++ ['>'])) [.start name attributes]
      (∀ att ∈ attributes, Plain att.2) := by
  intro rest k more
  have text : lines ('<' :: (name ++ attributes.flatMap printed ++ ['>']) ++ rest) =
      '<' :: (name ++ lines (attributes.flatMap printed ++ '>' :: rest)) := by
    rw [List.cons_append, List.append_assoc, List.append_assoc, List.singleton_append,
      lines_cons (by decide), lines_name (nameChar_of_isName is_name)]
  rw [text, run_start 0 is_name]
  exact attributes_iff names rest (behind_name name) distinct

theorem prints_text {name : Str} (is_name : isName name) (text shown : Str) :
    Prints (quote text ++ '<' :: '/' :: (name ++ ['>'])) (shown.map .char ++ [.stop name])
      (lines text = shown) := by
  intro rest k more
  obtain ⟨brackets, ran⟩ := run_quote 0 (lines text)
  have split : lines (quote text ++ '<' :: '/' :: (name ++ ['>']) ++ rest) =
      quote (lines text) ++ '<' :: '/' :: (name ++ '>' :: lines rest) := by
    rw [List.append_assoc, List.cons_append, List.cons_append, List.append_assoc,
      List.singleton_append, lines_quote, lines_cons (by decide),
      lines_name (nameChar_of_isName is_name), lines_cons (by decide)]
  rw [split, run_append_of ran, run_stop brackets is_name]
  cases run (.text 0) (lines rest) with
  | none => simp
  | some last =>
      simp only [Option.map_some, Option.some_inj, Prod.ext_iff, List.append_assoc,
        List.singleton_append]
      rw [chars_iff]
      tauto

/-- An element with attributes and a quoted text. -/
theorem prints_element {name : Str} (is_name : isName name) {attributes : Attributes}
    (names : ∀ att ∈ attributes, isName att.1) (distinct : (attributes.map Prod.fst).Nodup)
    (text shown : Str) :
    Prints ('<' :: (name ++ attributes.flatMap printed ++ ['>']) ++
        (quote text ++ '<' :: '/' :: (name ++ ['>'])))
      (.start name attributes :: (shown.map .char ++ [.stop name]))
      ((∀ att ∈ attributes, Plain att.2) ∧ lines text = shown) :=
  (prints_start is_name names distinct).append (prints_text is_name text shown)

theorem legal_quote (text : Str) : (quote text).all legal = text.all legal := by
  have one : ∀ c, (quoteChar c).all legal = legal c := by
    intro c
    unfold quoteChar
    split
    · rename_i special
      rw [special]
      decide
    · split
      · rename_i special
        rw [special]
        decide
      · split
        · rename_i special
          rw [special]
          decide
        · split
          · rename_i special
            rw [special]
            decide
          · split
            · rename_i special
              rw [special]
              decide
            · rw [List.all_cons, List.all_nil, Bool.and_true]
  induction text with
  | nil => rfl
  | cons c text ih =>
      have split : quote (c :: text) = quoteChar c ++ quote text := List.flatMap_cons
      rw [split, List.all_append, one, ih, List.all_cons]

theorem legal_name {name : Str} (is_name : isName name) : name.all legal := by
  have others : ∀ n ∈ List.range 0x20 ++ [0xfffe, 0xffff], nameChar (Char.ofNat n) = false := by
    decide
  have chars := nameChar_of_isName is_name
  rw [List.all_eq_true] at chars ⊢
  intro c member
  have outside : c.toNat ∉ List.range 0x20 ++ [0xfffe, 0xffff] := by
    intro inside
    have other := others _ inside
    rw [Char.ofNat_toNat, chars c member] at other
    cases other
  have low : 0x20 ≤ c.toNat ∧ c.toNat ≠ 0xfffe ∧ c.toNat ≠ 0xffff := by
    simpa only [List.mem_append, List.mem_range, List.mem_cons, List.not_mem_nil, or_false, not_or,
      Nat.not_lt] using outside
  unfold legal
  simp [low]

theorem legal_attributes {attributes : Attributes} (names : ∀ att ∈ attributes, isName att.1) :
    (attributes.flatMap printed).all legal ↔ ∀ att ∈ attributes, att.2.all legal := by
  have one : ∀ att ∈ attributes, (printed att).all legal = att.2.all legal := by
    intro att member
    have special : legal ' ' ∧ legal '=' ∧ legal '"' := by decide
    unfold printed
    simp only [List.all_cons, List.all_append, List.all_nil, legal_name (names att member), special,
      Bool.true_and, Bool.and_true]
  rw [List.all_flatMap, List.all_eq_true]
  exact forall₂_congr fun att member => by rw [one att member]

theorem legal_start {name : Str} (is_name : isName name) {attributes : Attributes}
    (names : ∀ att ∈ attributes, isName att.1) :
    ('<' :: (name ++ attributes.flatMap printed ++ ['>'])).all legal ↔
      ∀ att ∈ attributes, att.2.all legal := by
  rw [← legal_attributes names]
  have special : legal '<' ∧ legal '>' := by decide
  simp only [List.all_cons, List.all_append, List.all_nil, legal_name is_name, special,
    Bool.true_and, Bool.and_true]

theorem legal_text {name : Str} (is_name : isName name) (text : Str) :
    (quote text ++ '<' :: '/' :: (name ++ ['>'])).all legal = text.all legal := by
  have special : legal '<' ∧ legal '/' ∧ legal '>' := by decide
  simp only [List.all_cons, List.all_append, List.all_nil, legal_name is_name, legal_quote, special,
    Bool.and_true]

/-- A fragment of markup and an end tag. -/
theorem run_fragment {fragment : Str} {content : Content} (raw : Reads fragment content)
    {name : Str} (is_name : isName name) :
    run (.text 0) (lines (fragment ++ '<' :: '/' :: (name ++ ['>']))) =
      some (.text 0, content.events ++ [.stop name]) := by
  obtain ⟨-, brackets, ran⟩ := raw
  have closed : lines ('/' :: (name ++ ['>'])) = '/' :: (name ++ '>' :: []) := by
    rw [lines_cons (by decide), lines_name (nameChar_of_isName is_name)]
    rfl
  rw [lines_append (by decide) (by decide), closed, run_append_of ran, run_stop brackets is_name]
  rfl

end Text

end Xml
