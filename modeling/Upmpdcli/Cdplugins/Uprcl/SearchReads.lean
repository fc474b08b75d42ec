import Upmpdcli.Cdplugins.Uprcl.Search

set_option autoImplicit false

/- What the translation of a search string reads: whether each turn of its loop begins where
the one before has stopped. -/
namespace Upmpdcli.UprclSearch

open Text (isspace)

inductive SearchToken
  | sign (c : Char)
  | star
  | word (w : List Char)
  | value (content : List Char) (closed : Bool)
deriving DecidableEq

/-- Where the lexer is. -/
inductive Lexing
  | between
  | word (w : List Char)
  | value (escape instring : Bool) (content : List Char)

/-- The tokens of a search string. A word goes to the next blank, a value to its closing
quote. -/
def lexFrom : Lexing → List Char → List SearchToken
  | .between, [] => []
  | .word w, [] => [.word w]
  | .value _ _ content, [] => [.value content false]
  | .between, c :: rest =>
      if isspace c then lexFrom .between rest
      else if c = '*' then .star :: lexFrom .between rest
      else if c = '(' ∨ c = ')' ∨ c = '>' ∨ c = '<' ∨ c = '=' then .sign c :: lexFrom .between rest
      else if c = '"' then lexFrom (.value false false []) rest
      else lexFrom (.word [c]) rest
  | .word w, c :: rest =>
      if isspace c then .word w :: lexFrom .between rest else lexFrom (.word (w ++ [c])) rest
  | .value escape instring content, c :: rest =>
      match unquote escape instring c with
      | none => .value content true :: lexFrom .between rest
      | some (escape, instring, more) => lexFrom (.value escape instring (content ++ more)) rest

/-- Every value before the first `*` and the first unknown word has its closing quote, and
`shlex` finds no quote and no escape left open in it. -/
def Settled (lower : String → String) : List SearchToken → Prop
  | [] => True
  | .star :: _ => True
  | .sign _ :: rest => Settled lower rest
  | .word w :: rest =>
      (searchWord {} (lower (String.ofList w))).isSome = true → Settled lower rest
  | .value content closed :: rest =>
      closed = true ∧ ¬ Shlex.LeftOpenShlex (String.ofList content) ∧ Settled lower rest

/-- Only blanks from one position to another. -/
def Blank (s : List Char) (start stop : Nat) : Prop :=
  ∀ c ∈ (s.take stop).drop start, isspace c = true

/-- Each turn begins at the position where the reading has stopped, or behind blanks there.
`whole` says that the last one has left nothing but blanks. -/
def Reads (s : List Char) (whole : Bool) : Nat → List (Nat × Nat) → Prop
  | stop, [] => whole = true → Blank s stop s.length
  | stop, (start, next) :: rest => stop ≤ start ∧ Blank s stop start ∧ Reads s whole next rest

def isQuery : Except SearchError (Option String) → Bool
  | .ok (some _) => true
  | .ok none | .error _ => false

def Expected (result : Except SearchError (Option String)) : Prop :=
  ∀ error, result = .error error → error = .usage

/-- The translation ends with a query, `None` or the exception about `*`, reads each character
once and leaves none out. -/
def Robust (lower : String → String) (s : String) : Prop :=
  ∃ reads result, upnpsearchtorecoll lower s = some (reads, result) ∧ Expected result ∧
    Reads (simplify s.toList false) (isQuery result) 0 reads

section Scanners

variable (rest : List Char)

theorem readwordFrom_eq (j : Nat) (w : List Char) :
    readwordFrom rest j w =
      (if rest.takeWhile (!isspace ·) = rest then j + rest.length - 1
        else j + (rest.takeWhile (!isspace ·)).length,
        w ++ rest.takeWhile (!isspace ·)) := by
  induction rest generalizing j w with
  | nil => simp [readwordFrom]
  | cons c rest ih =>
      by_cases blank : isspace c = true
      · simp [readwordFrom, blank]
      · rw [readwordFrom, if_neg blank, ih]
        simp only [Bool.not_eq_true] at blank
        simp only [List.takeWhile_cons, blank, Bool.not_false, ↓reduceIte, List.cons.injEq, true_and,
          List.length_cons, List.append_assoc, List.singleton_append, Prod.mk.injEq, and_true]
        split
        · omega
        · omega

theorem lexFrom_word (w : List Char) :
    lexFrom (.word w) rest =
      .word (w ++ rest.takeWhile (!isspace ·)) ::
        lexFrom .between (rest.dropWhile (!isspace ·)) := by
  induction rest generalizing w with
  | nil => simp [lexFrom]
  | cons c rest ih =>
      by_cases blank : isspace c = true
      · simp [lexFrom, blank]
      · rw [lexFrom, if_neg blank, ih]
        simp only [Bool.not_eq_true] at blank
        simp [blank]

/-- The loop of `_parsestring` stops behind the closing quote. Without one it goes through
the string, and its position is the one of the last character. -/
theorem parsestringFrom_eq (j : Nat) (escape instring : Bool) (str : List Char) :
    (∃ content n, 0 < n ∧ n ≤ rest.length ∧
      parsestringFrom rest j escape instring str = (j + n, j + n, content) ∧
        lexFrom (.value escape instring str) rest =
          .value content true :: lexFrom .between (rest.drop n)) ∨
    (∃ content,
      parsestringFrom rest j escape instring str =
        (j + rest.length - 1, j + rest.length, content) ∧
      lexFrom (.value escape instring str) rest = [.value content false]) := by
  induction rest generalizing j escape instring str with
  | nil => exact .inr ⟨str, rfl, rfl⟩
  | cons c rest ih =>
      cases read : unquote escape instring c with
      | none =>
          refine .inl ⟨str, 1, Nat.one_pos, by simp, ?_, ?_⟩
          · simp [parsestringFrom, read]
          · simp [lexFrom, read]
      | some next =>
          obtain ⟨escape', instring', more⟩ := next
          rcases ih (j + 1) escape' instring' (str ++ more) with
            ⟨content, n, some, within, stops, tokens⟩ | ⟨content, stops, tokens⟩
          · refine .inl ⟨content, n + 1, by omega, by simpa using within, ?_, ?_⟩
            · simp only [parsestringFrom, read, stops, Prod.mk.injEq, and_true]
              omega
            · simp [lexFrom, read, tokens]
          · refine .inr ⟨content, ?_, ?_⟩
            · simp only [parsestringFrom, read, stops, List.length_cons, Prod.mk.injEq, and_true]
              omega
            · simp [lexFrom, read, tokens]

end Scanners

section Turns

variable (lower : String → String) (s : List Char) (st : SearchState)

theorem blank_self (i : Nat) : Blank s i i := by
  intro c member
  simp [List.drop_eq_nil_of_le (List.length_take_le i s)] at member

theorem blank_succ {c : Char} {rest : List Char} {i : Nat} (here : s.drop i = c :: rest)
    (blank : isspace c = true) : Blank s i (i + 1) := by
  intro other member
  rw [List.drop_take, here] at member
  simp only [Nat.add_sub_cancel_left, List.take_succ_cons, List.take_zero, List.mem_singleton]
    at member
  rw [member]
  exact blank

theorem getchar_of_drop {c : Char} {rest : List Char} {i : Nat} (here : s.drop i = c :: rest) :
    getchar s i = (i + 1, some c) ∧ i < s.length ∧ s.drop (i + 1) = rest := by
  have found : s[i]? = some c := by
    rw [← List.head?_drop, here]
    rfl
  refine ⟨by simp [getchar, found], ?_, ?_⟩
  · exact (List.getElem?_eq_some_iff.mp found).1
  · rw [← List.tail_drop, here]
    rfl

/-- A word is read to its end. When its delimiter is the last character the position is behind
that one. -/
theorem readword_spec {c : Char} {rest : List Char} {i : Nat} (here : s.drop i = c :: rest)
    (char : isspace c = false) :
    ∃ j w, readword s i = (j, w) ∧ i + w.length ≤ j ∧ i < j ∧ j ≤ s.length ∧
      Blank s (i + w.length) j ∧
      lexFrom (.word [c]) rest = .word w :: lexFrom .between (s.drop j) := by
  obtain ⟨w, takes⟩ : ∃ w, (s.drop i).takeWhile (!isspace ·) = w := ⟨_, rfl⟩
  obtain ⟨after, drops⟩ : ∃ after, (s.drop i).dropWhile (!isspace ·) = after := ⟨_, rfl⟩
  have split : s.drop i = w ++ after := by rw [← takes, ← drops, List.takeWhile_append_dropWhile]
  have behind : s.drop (i + w.length) = after := by rw [← List.drop_drop, split, List.drop_left]
  have whole : w.length + after.length = s.length - i := by
    rw [← List.length_append, ← split, List.length_drop]
  have inside : i < s.length := (getchar_of_drop s here).2.1
  have first : w = c :: rest.takeWhile (!isspace ·) := by simp [← takes, here, char]
  have some : 0 < w.length := by simp [first]
  have tokens : lexFrom (.word [c]) rest = .word w :: lexFrom .between after := by
    rw [lexFrom_word, first, ← drops, here, List.dropWhile_cons]
    simp [char]
  cases after with
  | nil =>
      have all : (s.drop i).takeWhile (!isspace ·) = s.drop i := by
        rw [takes, split, List.append_nil]
      rw [List.length_nil] at whole
      have stop : s.length = i + w.length := by omega
      refine ⟨s.length, w, ?_, by omega, inside, Nat.le_refl _, ?_, ?_⟩
      · simp only [readword, readwordFrom_eq, all, ↓reduceIte, List.length_drop, List.nil_append]
        rw [if_pos (by omega), split, List.append_nil]
        simp only [Prod.mk.injEq, and_true]
        omega
      · rw [← stop]
        exact blank_self s _
      · rw [List.drop_length]
        exact tokens
  | cons d after =>
      have blank : isspace d = true := by
        have not := List.head?_dropWhile_not (!isspace ·) (s.drop i)
        rw [drops] at not
        simpa using not
      have notAll : w ≠ s.drop i := by simp [split]
      rw [List.length_cons] at whole
      have read : readword s i = (if i + w.length + 1 = s.length then i + w.length + 1
          else i + w.length, w) := by
        simp only [readword, readwordFrom_eq, takes, if_neg notAll, List.nil_append]
      by_cases last : i + w.length + 1 = s.length
      · refine ⟨i + w.length + 1, w, by rw [read, if_pos last], by omega, by omega, by omega,
          blank_succ s behind blank, ?_⟩
        have next := (getchar_of_drop s behind).2.2
        rw [tokens, next, lexFrom, if_pos blank]
      · refine ⟨i + w.length, w, by rw [read, if_neg last], by omega, by omega, by omega,
          blank_self s _, ?_⟩
        rw [behind]
        exact tokens

/-- Whether a word is known does not depend on what was read before. -/
theorem searchWord_isSome (w : String) : (searchWord st w).isSome = (searchWord {} w).isSome := by
  unfold searchWord
  repeat' split
  all_goals simp

theorem searchWord_i {w : String} {st' : SearchState} (known : searchWord st w = some st') :
    st'.i = st.i := by
  grind [searchWord, Option.map_eq_some_iff]

/-- `shlex` raises on what is left open. -/
theorem stringToStrings_eq_none_iff (content : List Char) :
    Shlex.stringToStrings (String.ofList content) = none ↔
      Shlex.LeftOpenShlex (String.ofList content) := by
  exact Shlex.tokensFrom_eq_none_iff ⟨rfl, rfl⟩

/-- The loop ends from a state, and does so as it should exactly if what is left of the
string is settled. -/
def Decided (turns : Nat) : Prop :=
  ∃ reads result, searchLoop lower s turns st = some (reads, result) ∧
    (∃ next rest, reads = (st.i, next) :: rest) ∧
    ∀ stop ≤ st.i, Blank s stop st.i →
      (Expected result ∧ Reads s (isQuery result) stop reads ↔
        Settled lower (lexFrom .between (s.drop st.i)))

variable {lower s st} {st' : SearchState} {turns next : Nat}

theorem decided_of_ends {result : Except SearchError (Option String)}
    (turn : searchTurn lower s st = (next, .ends result))
    (same : Expected result ∧ (isQuery result = true → Blank s next s.length) ↔
      Settled lower (lexFrom .between (s.drop st.i))) : Decided lower s st (turns + 1) := by
  refine ⟨[(st.i, next)], result, ?_, ⟨next, [], rfl⟩, ?_⟩
  · simp only [searchLoop, turn]
  · intro stop before gap
    simp only [Reads, before, gap, true_and]
    exact same

theorem decided_of_next (turn : searchTurn lower s st = (next, .next st'))
    (later : Decided lower s st' turns) (before : next ≤ st'.i) (gap : Blank s next st'.i)
    (same : Settled lower (lexFrom .between (s.drop st'.i)) ↔
      Settled lower (lexFrom .between (s.drop st.i))) : Decided lower s st (turns + 1) := by
  obtain ⟨reads, result, ran, -, agree⟩ := later
  refine ⟨(st.i, next) :: reads, result, ?_, ⟨next, reads, rfl⟩, ?_⟩
  · simp only [searchLoop, turn, ran, Option.map_some]
  · intro stop before' gap'
    simp only [Reads, before', gap', true_and]
    rw [agree next before gap, same]

/-- The next turn begins before the end of what this one has read. -/
theorem decided_of_reread (turn : searchTurn lower s st = (next, .next st'))
    (later : Decided lower s st' turns) (again : st'.i < next)
    (unsettled : ¬ Settled lower (lexFrom .between (s.drop st.i))) :
    Decided lower s st (turns + 1) := by
  obtain ⟨reads, result, ran, ⟨next', rest, rfl⟩, -⟩ := later
  refine ⟨(st.i, next) :: (st'.i, next') :: rest, result, ?_, ⟨next, _, rfl⟩, ?_⟩
  · simp only [searchLoop, turn, ran, Option.map_some]
  · intro stop _ _
    refine iff_of_false ?_ unsettled
    rintro ⟨-, -, -, late, -⟩
    omega

/-- A quote begins a value. -/
theorem searchTurn_of_quote (lower : String → String) {rest : List Char}
    (here : s.drop st.i = '"' :: rest) :
    searchTurn lower s st =
      match parsestring s (st.i + 1) with
      | .error error => (st.i + 1, .ends (.error error))
      | .ok (j, stop, v) =>
          (stop, .next { i := j, out := st.out ++ makeSearchExp v st.field st.oper st.neg }) := by
  simp only [searchTurn, (getchar_of_drop s here).1]
  rfl

/-- The value which begins at `i`. -/
theorem decided_of_value {rest : List Char} (here : s.drop st.i = '"' :: rest)
    (later : ∀ st' : SearchState, st.i < st'.i → st'.i ≤ s.length → Decided lower s st' turns) :
    Decided lower s st (turns + 1) := by
  obtain ⟨_, inside, behind⟩ := getchar_of_drop s here
  have value := searchTurn_of_quote lower here
  have tokens : lexFrom .between (s.drop st.i) = lexFrom (.value false false []) rest := by
    rw [here]
    rfl
  have long : rest.length = s.length - (st.i + 1) := by rw [← behind, List.length_drop]
  rcases parsestringFrom_eq rest (st.i + 1) false false [] with
    ⟨content, n, some, within, stops, lexed⟩ | ⟨content, stops, lexed⟩
  · cases read : Shlex.stringToStrings (String.ofList content) with
    | none =>
        have parsed : parsestring s (st.i + 1) = .error .value := by
          simp only [parsestring, behind, stops, read]
        rw [parsed] at value
        refine decided_of_ends value ?_
        rw [tokens, lexed]
        refine iff_of_false ?_ ?_
        · rintro ⟨expected, -⟩
          cases expected _ rfl
        · rintro ⟨-, closed, -⟩
          exact closed ((stringToStrings_eq_none_iff content).mp read)
    | some v =>
        have parsed : parsestring s (st.i + 1) = .ok (st.i + 1 + n, st.i + 1 + n, v) := by
          simp only [parsestring, behind, stops, read]
          rw [if_pos (by omega)]
        rw [parsed] at value
        refine decided_of_next value (later _ ?_ ?_) (Nat.le_refl _) (blank_self s _) ?_
        · show st.i < st.i + 1 + n
          omega
        · show st.i + 1 + n ≤ s.length
          omega
        · have notOpen : ¬ Shlex.LeftOpenShlex (String.ofList content) := by
            rw [← stringToStrings_eq_none_iff, read]
            simp
          rw [tokens, lexed, ← behind, List.drop_drop]
          simp [Settled, notOpen]
  · have unsettled : ¬ Settled lower (lexFrom .between (s.drop st.i)) := by
      rw [tokens, lexed]
      simp [Settled]
    cases read : Shlex.stringToStrings (String.ofList content) with
    | none =>
        have parsed : parsestring s (st.i + 1) = .error .value := by
          simp only [parsestring, behind, stops, read]
        rw [parsed] at value
        refine decided_of_ends value (iff_of_false ?_ unsettled)
        rintro ⟨expected, -⟩
        cases expected _ rfl
    | some v =>
        by_cases more : st.i + 1 < s.length
        · have parsed : parsestring s (st.i + 1) =
              .ok (st.i + 1 + rest.length - 1, st.i + 1 + rest.length, v) := by
            simp only [parsestring, behind, stops, read]
            rw [if_pos more]
          rw [parsed] at value
          refine decided_of_reread value (later _ ?_ ?_) ?_ unsettled
          · show st.i < st.i + 1 + rest.length - 1
            omega
          · show st.i + 1 + rest.length - 1 ≤ s.length
            omega
          · show st.i + 1 + rest.length - 1 < st.i + 1 + rest.length
            omega
        · have parsed : parsestring s (st.i + 1) = .error .unboundLocal := by
            simp only [parsestring, behind, stops, read]
            rw [if_neg more]
          rw [parsed] at value
          refine decided_of_ends value (iff_of_false ?_ unsettled)
          rintro ⟨expected, -⟩
          cases expected _ rfl

theorem decided_of_word {c : Char} {rest : List Char} (here : s.drop st.i = c :: rest)
    (turn : searchTurn lower s st =
      let (j, w) := readword s st.i
      match searchWord { st with i := j } (lower (String.ofList w)) with
      | none => (st.i + w.length, .ends (.ok none))
      | some next => (st.i + w.length, .next next))
    (char : isspace c = false)
    (lexed : lexFrom .between (s.drop st.i) = lexFrom (.word [c]) rest)
    (later : ∀ st' : SearchState, st.i < st'.i → st'.i ≤ s.length → Decided lower s st' turns) :
    Decided lower s st (turns + 1) := by
  obtain ⟨j, w, read, stops, on, within, gap, tokens⟩ := readword_spec s here char
  rw [read] at turn
  dsimp only at turn
  rw [tokens] at lexed
  have same := searchWord_isSome { st with i := j } (lower (String.ofList w))
  cases known : searchWord { st with i := j } (lower (String.ofList w)) with
  | none =>
      rw [known] at turn same
      refine decided_of_ends turn (iff_of_true ⟨by simp [Expected], by simp [isQuery]⟩ ?_)
      rw [lexed]
      intro found
      rw [← same] at found
      cases found
  | some next =>
      rw [known] at turn same
      have place : next.i = j := searchWord_i _ known
      refine decided_of_next turn (later next ?_ ?_) ?_ ?_ ?_
      · omega
      · omega
      · omega
      · rw [place]
        exact gap
      · rw [lexed, place]
        constructor
        · intro settled _
          exact settled
        · intro settled
          exact settled (by rw [← same]; rfl)

/-- A character which is a token of its own, or a blank. -/
theorem decided_of_char {c : Char} {rest : List Char} (here : s.drop st.i = c :: rest)
    (turn : searchTurn lower s st = (st.i + 1, .next st')) (on : st'.i = st.i + 1)
    (lexed : Settled lower (lexFrom .between rest) ↔
      Settled lower (lexFrom .between (s.drop st.i)))
    (later : ∀ st' : SearchState, st.i < st'.i → st'.i ≤ s.length → Decided lower s st' turns) :
    Decided lower s st (turns + 1) := by
  obtain ⟨-, inside, behind⟩ := getchar_of_drop s here
  refine decided_of_next turn (later st' ?_ ?_) ?_ ?_ ?_
  · omega
  · omega
  · omega
  · rw [on]
    exact blank_self s _
  · rw [on, behind]
    exact lexed

theorem decided_of_star {rest : List Char} (here : s.drop st.i = '*' :: rest) :
    Decided lower s st (turns + 1) := by
  obtain ⟨char, -, -⟩ := getchar_of_drop s here
  have settled : Settled lower (lexFrom .between (s.drop st.i)) := by
    rw [here]
    trivial
  by_cases refused : hasOutput st.out = true ∨
      (s.drop (st.i + 1) ≠ [] ∧ ¬ (s.drop (st.i + 1)).all isspace = true)
  · have turn : searchTurn lower s st = (st.i + 1, .ends (.error .usage)) := by
      simp only [searchTurn, char]
      rw [if_neg (by decide), if_pos trivial, if_pos refused]
    refine decided_of_ends turn (iff_of_true ⟨?_, by simp [isQuery]⟩ settled)
    intro error raised
    cases raised
    rfl
  · have turn : searchTurn lower s st = (st.i + 1, .ends (.ok (some "mime:*"))) := by
      simp only [searchTurn, char]
      rw [if_neg (by decide), if_pos trivial, if_neg refused]
    refine decided_of_ends turn (iff_of_true ⟨by simp [Expected], fun _ => ?_⟩ settled)
    intro other member
    rw [List.take_length] at member
    obtain ⟨-, alone⟩ := not_or.mp refused
    rw [not_and, not_not] at alone
    exact List.all_eq_true.mp (alone (List.ne_nil_of_mem member)) other member

/-- The induction is on the number of turns, which is larger than what is left of the string. -/
theorem decided (turns : Nat) (st : SearchState) (within : st.i ≤ s.length)
    (enough : s.length < st.i + turns) : Decided lower s st turns := by
  induction turns generalizing st with
  | zero => omega
  | succ turns ih =>
      have later : ∀ st' : SearchState, st.i < st'.i → st'.i ≤ s.length →
          Decided lower s st' turns := fun st' on within' => ih st' within' (by omega)
      cases here : s.drop st.i with
      | nil =>
          have past : s.length ≤ st.i := List.drop_eq_nil_iff.mp here
          have turn : searchTurn lower s st =
              (st.i, .ends (.ok (some (" ".intercalate st.out)))) := by
            simp [searchTurn, getchar, List.getElem?_eq_none past]
          refine decided_of_ends turn (iff_of_true ⟨by simp [Expected], fun _ => ?_⟩ ?_)
          · have same : st.i = s.length := by omega
            rw [same]
            exact blank_self s _
          · rw [here]
            trivial
      | cons c rest =>
          obtain ⟨char, -, -⟩ := getchar_of_drop s here
          by_cases blank : isspace c = true
          · have turn : searchTurn lower s st = (st.i + 1, .next { st with i := st.i + 1 }) := by
              simp only [searchTurn, char]
              rw [if_pos blank]
            refine decided_of_char here turn rfl ?_ later
            rw [here, lexFrom, if_pos blank]
          by_cases star : c = '*'
          · subst star
            exact decided_of_star here
          by_cases paren : c = '(' ∨ c = ')'
          · have turn : searchTurn lower s st = (st.i + 1,
                .next { st with i := st.i + 1, out := st.out ++ [String.ofList [c]] }) := by
              simp only [searchTurn, char]
              rw [if_neg blank, if_neg star, if_pos paren]
            refine decided_of_char here turn rfl ?_ later
            rw [here, lexFrom, if_neg blank, if_neg star, if_pos (by tauto)]
            rfl
          by_cases sign : c = '>' ∨ c = '<' ∨ c = '='
          · have turn : searchTurn lower s st = (st.i + 1,
                .next { st with i := st.i + 1, oper := st.oper ++ String.ofList [c] }) := by
              simp only [searchTurn, char]
              rw [if_neg blank, if_neg star, if_neg paren, if_pos sign]
            refine decided_of_char here turn rfl ?_ later
            rw [here, lexFrom, if_neg blank, if_neg star, if_pos (by tauto)]
            rfl
          by_cases quote : c = '"'
          · subst quote
            exact decided_of_value here later
          · refine decided_of_word here ?_ (Bool.eq_false_iff.mpr blank) ?_ later
            · simp only [searchTurn, char]
              rw [if_neg blank, if_neg star, if_neg paren, if_neg sign, if_neg quote]
              rfl
            · rw [here, lexFrom, if_neg blank, if_neg star, if_neg (by tauto), if_neg quote]

end Turns

/-- The translation does what it should exactly on the strings whose values, up to the first
`*` or unknown word, are closed and leave nothing open for `shlex`. -/
theorem robust_iff (lower : String → String) (s : String) :
    Robust lower s ↔ Settled lower (lexFrom .between (simplify s.toList false)) := by
  obtain ⟨reads, result, ran, -, agree⟩ :=
    @decided lower (simplify s.toList false) ((simplify s.toList false).length + 1) {}
      (Nat.zero_le _) (by simp)
  have same := agree 0 (Nat.zero_le _) (blank_self _ _)
  constructor
  · rintro ⟨reads', result', ran', robust⟩
    rw [upnpsearchtorecoll, ran] at ran'
    cases ran'
    exact same.mp robust
  · intro settled
    exact ⟨reads, result, ran, same.mpr settled⟩

/-- A quote as the last character, a value without its closing quote, and a value which ends
with an escaped backslash. -/
theorem not_robust :
    let lower := fun w : String => String.ofList (w.toList.map Char.toLower)
    ¬ Robust lower "dc:title contains \"" ∧ ¬ Robust lower "dc:title contains \"ab" ∧
      ¬ Robust lower "dc:title contains \"ab\\\\\"" := by
  intro lower
  refine ⟨?_, ?_, ?_⟩
  · have ran : upnpsearchtorecoll lower "dc:title contains \"" =
        some ([(0, 8), (8, 9), (9, 17), (17, 18), (18, 19)], .error .unboundLocal) := by
      decide
    rintro ⟨reads, result, ran', expected, -⟩
    rw [ran] at ran'
    cases ran'
    cases expected _ rfl
  · have ran : upnpsearchtorecoll lower "dc:title contains \"ab" =
        some ([(0, 8), (8, 9), (9, 17), (17, 18), (18, 21), (20, 21)], .ok none) := by
      decide
    rintro ⟨reads, result, ran', -, read⟩
    rw [ran] at ran'
    cases ran'
    simp [Reads] at read
  · have ran : upnpsearchtorecoll lower "dc:title contains \"ab\\\\\"" =
        some ([(0, 8), (8, 9), (9, 17), (17, 18), (18, 19)], .error .value) := by
      decide
    rintro ⟨reads, result, ran', expected, -⟩
    rw [ran] at ran'
    cases ran'
    cases expected _ rfl

end Upmpdcli.UprclSearch
