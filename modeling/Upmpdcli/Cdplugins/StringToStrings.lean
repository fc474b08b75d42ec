import Upmpdcli.Cdplugins.Shlex

set_option autoImplicit false

/- Where the string list parser of the Python plugins agrees with the one it emulates. -/
namespace Upmpdcli.Shlex

open Smallut

/-- Both parsers reject the string, or both read the same tokens. -/
def Agree (s : String) : Prop :=
  stringToStrings s =
    if (Smallut.stringToStrings s).2 then some (Smallut.stringToStrings s).1 else none

instance : DecidablePred Agree := fun _ => inferInstanceAs (Decidable (_ = _))

/-- Where a string which has the common syntax may be. `quoted` says whether there is already
a character between the quotes. -/
inductive Form
  | space
  | word
  | quoted (started : Bool)
  | escaped
  | closed
deriving DecidableEq

/-- The common syntax: words without quotes, backslashes and number signs, and nonempty quoted
strings with a blank behind them, in which a backslash stands only before a quote or a
backslash. -/
def Form.next : Form → Kind → Option Form
  | .space, .whitespace => some .space
  | .space, .quotes => some (.quoted false)
  | .space, .word => some .word
  | .word, .whitespace => some .space
  | .word, .word => some .word
  | .quoted true, .quotes => some .closed
  | .quoted false, .quotes => none
  | .quoted _, .escape => some .escaped
  | .quoted _, _ => some (.quoted true)
  | .escaped, .quotes | .escaped, .escape => some (.quoted true)
  | .closed, .whitespace => some .space
  | _, _ => none

def Form.reads : Form → List Char → Bool
  | .space, [] | .word, [] | .closed, [] => true
  | .quoted _, [] | .escaped, [] => false
  | form, c :: rest =>
      match form.next (kind c) with
      | some form => form.reads rest
      | none => false

def Conforms (s : String) : Prop := Form.space.reads s.toList = true

/-- How the emulated parser counts quotes and backslashes: a quote opens only at the beginning
of a token, and a backslash escapes only between quotes. -/
def nextQuoting (state : TokenState) (c : Char) : TokenState :=
  match state, kind c with
  | .space, .quotes => .inquote
  | .space, .whitespace | .token, .whitespace | .inquote, .quotes => .space
  | .space, _ | .token, _ => .token
  | .inquote, .escape => .escape
  | .inquote, _ => .inquote
  | .escape, .whitespace => .escape
  | .escape, _ => .inquote

/-- The string ends between quotes for the emulated parser. -/
def LeftOpen (s : String) : Prop :=
  s.toList.foldl nextQuoting .space = .inquote ∨ s.toList.foldl nextQuoting .space = .escape

/-- How `shlex` counts them: a quote opens in a word too, a backslash escapes everywhere, a
number sign outside quotes hides the line, and an empty token ends the reading. `started` says
whether the token has a character. -/
def nextShlex (c : Char) (state : State) (started : Bool) : Option (State × Bool) :=
  match state, kind c with
  | .space, .whitespace => some (.space, false)
  | .space, .commenters => some (.comment, false)
  | .space, .escape => some (.escape false, false)
  | .space, .quotes => some (.quotes, false)
  | .quotes, .quotes => some (.word, started)
  | .quotes, .escape => some (.escape true, started)
  | .quotes, _ | .escape true, _ => some (.quotes, true)
  | .word, .whitespace => if started then some (.space, false) else none
  | .word, .commenters => if started then some (.comment, false) else none
  | .word, .quotes => some (.quotes, started)
  | .word, .escape => some (.escape false, started)
  | .space, .word | .word, .word | .escape false, _ => some (.word, true)
  | .comment, _ => some (if c = '\n' then .space else .comment, false)

def endsOpen : List Char → State → Bool → Bool
  | [], .quotes, _ | [], .escape _, _ => true
  | [], _, _ => false
  | c :: rest, state, started =>
      match nextShlex c state started with
      | some (state, started) => endsOpen rest state started
      | none => false

/-- The string ends between quotes or behind a backslash for `shlex`. -/
def LeftOpenShlex (s : String) : Prop := endsOpen s.toList .space false = true

/-- One turn of the emulated parser, by the kind of the character. -/
theorem tokenStep_eq (c : Char) (state : TokenState) (current : List Char)
    (tokens : List String) :
    tokenStep c state current tokens =
      match state, kind c with
      | .space, .quotes => (.inquote, current, tokens)
      | .space, .whitespace => (.space, current, tokens)
      | .space, _ => (.token, current ++ [c], tokens)
      | .token, .whitespace => (.space, [], tokens ++ [String.ofList current])
      | .token, _ => (.token, current ++ [c], tokens)
      | .inquote, .quotes => (.space, [], tokens ++ [String.ofList current])
      | .inquote, .escape => (.escape, current, tokens)
      | .inquote, _ => (.inquote, current ++ [c], tokens)
      | .escape, .whitespace => (.escape, current ++ [c], tokens)
      | .escape, _ => (.inquote, current ++ [c], tokens) := by
  have spec := kind_spec c
  unfold tokenStep
  cases which : kind c with
  | whitespace =>
      rw [which] at spec
      have notQuote : c ≠ '"' := by rintro rfl; simp at spec
      have notBackslash : c ≠ '\\' := by rintro rfl; simp at spec
      rw [if_neg notQuote, if_neg notBackslash, if_pos spec]
      cases state <;> rfl
  | commenters =>
      rw [which] at spec
      subst spec
      cases state <;> rfl
  | escape =>
      rw [which] at spec
      subst spec
      cases state <;> rfl
  | quotes =>
      rw [which] at spec
      subst spec
      cases state <;> rfl
  | word =>
      rw [which] at spec
      rw [if_neg spec.2.2.2, if_neg spec.2.2.1, if_neg spec.1]
      cases state <;> rfl

/-- The rejection of the emulated parser. -/
theorem rejects_iff (rest : List Char) (state : TokenState) (current : List Char)
    (tokens : List String) :
    (stringToStringsFrom rest state current tokens).2 = false ↔
      rest.foldl nextQuoting state = .inquote ∨ rest.foldl nextQuoting state = .escape := by
  induction rest generalizing state current tokens with
  | nil => cases state <;> simp [stringToStringsFrom]
  | cons c rest ih =>
      have step : (tokenStep c state current tokens).1 = nextQuoting state c := by
        rw [tokenStep_eq]
        unfold nextQuoting
        cases state <;> cases kind c <;> rfl
      rw [stringToStringsFrom_cons, List.foldl_cons, ← step]
      exact ih _ _ _

section Read

variable {c : Char} {rest : List Char} {state : State} {token : List Char} {quoted : Bool}
  {tokens out : List String}

theorem nextShlex_eq (begun : Begun state token quoted) :
    let read := readChar c state token quoted
    nextShlex c state (decide (token ≠ [])) =
      if read.2.2.2 then if read.2.1 = [] then none else some (read.1, false)
      else some (read.1, decide (read.2.1 ≠ [])) := by
  unfold nextShlex readChar
  cases state with
  | space =>
      obtain ⟨rfl, rfl⟩ := begun
      cases kind c <;> simp
  | word =>
      have begun : token ≠ [] ∨ quoted = true := begun
      cases kind c <;> simp [begun]
  | quotes => cases kind c <;> simp
  | escape inQuotes => cases inQuotes <;> cases kind c <;> simp
  | comment =>
      obtain ⟨rfl, rfl⟩ := begun
      simp

/-- The rejection of `shlex`. -/
theorem tokensFrom_eq_none_iff (begun : Begun state token quoted) :
    tokensFrom rest state token quoted tokens = none ↔
      endsOpen rest state (decide (token ≠ [])) = true := by
  induction rest generalizing state token quoted tokens with
  | nil => cases state <;> simp [tokensFrom, endsOpen]
  | cons c rest ih =>
      obtain ⟨on, ends⟩ := begun_readChar c state token quoted begun
      have next : nextShlex c state (decide (token ≠ [])) = _ := nextShlex_eq begun
      rw [tokensFrom_cons, endsOpen, next]
      dsimp only
      split
      · rename_i ended
        by_cases empty : (readChar c state token quoted).2.1 = []
        · rw [if_pos empty, if_pos empty]
          simp
        · rw [if_neg empty, if_neg empty]
          exact ih (ends ended)
      · rename_i goes
        exact ih (on (Bool.eq_false_iff.mpr goes))

/-- The lexer adds no empty token. -/
theorem tokensFrom_more (read : tokensFrom rest state token quoted tokens = some out) :
    ∃ more, out = tokens ++ more ∧ "" ∉ more := by
  induction rest generalizing state token quoted tokens with
  | nil =>
      have ends : out = tokens ++ if token = [] then [] else [String.ofList token] := by
        cases state with
        | quotes | escape => cases read
        | space | word | comment =>
            cases read
            split <;> simp
      refine ⟨_, ends, ?_⟩
      split
      · simp
      · rename_i some
        rw [List.mem_singleton]
        exact fun empty => some (by simpa using congrArg String.toList empty.symm)
  | cons c rest ih =>
      rw [tokensFrom_cons] at read
      dsimp only at read
      split at read
      · split at read
        · cases read
          exact ⟨[], (List.append_nil _).symm, List.not_mem_nil⟩
        · rename_i some
          obtain ⟨more, rfl, full⟩ := ih read
          refine ⟨String.ofList (readChar c state token quoted).2.1 :: more, by simp, ?_⟩
          rw [List.mem_cons, not_or]
          exact ⟨fun empty => some (by simpa using congrArg String.toList empty.symm), full⟩
      · exact ih read

/-- What the lexer loses between a backslash in quotes and the character behind it. -/
def pending : State → Nat
  | .escape true => 1
  | .space | .word | .quotes | .escape false | .comment => 0

/-- The lexer is in a token. -/
def Inside (state : State) : Prop := state ≠ .space ∧ state ≠ .comment

theorem readChar_inside (inside : Inside state) (begun : Begun state token quoted) :
    let read := readChar c state token quoted
    (read.2.2.2 = true ∧ read.2.1 = token) ∨
      (read.2.2.2 = false ∧ Inside read.1 ∧ token <+: read.2.1 ∧
        (kind c = .whitespace → c ∈ read.2.1) ∧
          read.2.1.length + pending read.1 ≤ token.length + pending state + 1) := by
  unfold readChar Inside
  cases state with
  | space => exact absurd rfl inside.1
  | comment => exact absurd rfl inside.2
  | word =>
      have begun : token ≠ [] ∨ quoted = true := begun
      cases kind c <;> simp [begun, pending]
  | quotes => cases kind c <;> simp [pending]
  | escape inQuotes => cases inQuotes <;> cases kind c <;> simp [pending]

/-- The token in which the lexer is: it has the blanks which do not end it, or is not longer
than what is left of the word. -/
theorem tokensFrom_inside (inside : Inside state) (begun : Begun state token quoted)
    (read : tokensFrom rest state token quoted tokens = some out) :
    (out = tokens ∧ token = []) ∨ ∃ tok more, out = tokens ++ String.ofList tok :: more ∧
      token <+: tok ∧ ((∃ c ∈ tok, kind c = .whitespace) ∨
        tok.length ≤
          token.length + pending state + (rest.takeWhile (kind · ≠ .whitespace)).length) := by
  induction rest generalizing state token quoted tokens with
  | nil =>
      cases state with
      | quotes | escape => cases read
      | space => exact absurd rfl inside.1
      | comment => exact absurd rfl inside.2
      | word =>
          cases read
          by_cases empty : token = []
          · exact .inl ⟨if_pos empty, empty⟩
          · rw [if_neg empty]
            exact .inr ⟨token, [], rfl, List.prefix_refl _, .inr (Nat.le_add_right _ _)⟩
  | cons c rest ih =>
      have on := (begun_readChar c state token quoted begun).1
      rw [tokensFrom_cons] at read
      dsimp only at read
      rcases readChar_inside (c := c) inside begun with ⟨ended, same⟩ |
        ⟨goes, inside', longer, blank, length⟩
      · rw [ended, if_pos rfl, same] at read
        by_cases empty : token = []
        · rw [if_pos empty] at read
          cases read
          exact .inl ⟨rfl, empty⟩
        · rw [if_neg empty] at read
          obtain ⟨more, rfl, -⟩ := tokensFrom_more read
          refine .inr ⟨token, more, by simp, List.prefix_refl _, .inr ?_⟩
          omega
      · rw [goes, if_neg Bool.false_ne_true] at read
        rcases ih inside' (on goes) read with ⟨rfl, empty⟩ | ⟨tok, more, rfl, begins, bound⟩
        · rw [empty] at longer
          exact .inl ⟨rfl, List.prefix_nil.mp longer⟩
        · refine .inr ⟨tok, more, rfl, longer.trans begins, ?_⟩
          by_cases white : kind c = .whitespace
          · exact .inl ⟨c, begins.subset (blank white), white⟩
          · refine bound.imp id fun short => ?_
            rw [List.takeWhile_cons_of_pos (by simpa using white), List.length_cons]
            omega

theorem count_readChar_le :
    (readChar c state token quoted).2.1.count '#' ≤ token.count '#' + [c].count '#' := by
  unfold readChar
  cases state with
  | space => cases kind c <;> simp
  | word => cases kind c <;> simp
  | quotes => cases kind c <;> simp
  | escape inQuotes => cases inQuotes <;> cases kind c <;> simp
  | comment => simp

/-- The lexer adds no number sign. -/
theorem countIn_tokensFrom_le (read : tokensFrom rest state token quoted tokens = some out) :
    countIn '#' out ≤ countIn '#' tokens + token.count '#' + rest.count '#' := by
  induction rest generalizing state token quoted tokens with
  | nil =>
      cases state with
      | quotes | escape => cases read
      | space | word | comment =>
          cases read
          split
          · omega
          · rw [countIn_append, countIn_singleton]
            exact Nat.le_refl _
  | cons c rest ih =>
      have once : (readChar c state token quoted).2.1.count '#' ≤ token.count '#' + [c].count '#' :=
        count_readChar_le
      have split : (c :: rest).count '#' = [c].count '#' + rest.count '#' := by
        rw [← List.count_append, List.singleton_append]
      rw [tokensFrom_cons] at read
      dsimp only at read
      split at read
      · split at read
        · cases read
          omega
        · have later := ih read
          rw [countIn_append, countIn_singleton, List.count_nil] at later
          omega
      · have later := ih read
        omega

end Read

section Emulated

variable {rest : List Char} {state : TokenState} {current : List Char} {tokens out : List String}

theorem countIn_tokenStep (c : Char) (empty : state = .space → current = []) :
    ((tokenStep c state current tokens).1 = .space → (tokenStep c state current tokens).2.1 = []) ∧
      countIn '#' (tokenStep c state current tokens).2.2 +
        (tokenStep c state current tokens).2.1.count '#' =
          countIn '#' tokens + current.count '#' + [c].count '#' := by
  have spec := kind_spec c
  rw [tokenStep_eq]
  cases which : kind c with
  | whitespace =>
      rw [which] at spec
      have absent : [c].count '#' = 0 := by
        rcases spec with rfl | rfl | rfl | rfl <;> rfl
      cases state <;> simp_all [countIn_append, countIn_singleton]
  | commenters => cases state <;> simp [Nat.add_assoc]
  | escape =>
      rw [which] at spec
      subst spec
      cases state <;> simp
  | quotes =>
      rw [which] at spec
      subst spec
      cases state <;> simp_all [countIn_append, countIn_singleton]
  | word => cases state <;> simp [Nat.add_assoc]

/-- The emulated parser loses no number sign. -/
theorem countIn_stringToStringsFrom (empty : state = .space → current = [])
    (read : stringToStringsFrom rest state current tokens = (out, true)) :
    countIn '#' out = countIn '#' tokens + current.count '#' + rest.count '#' := by
  induction rest generalizing state current tokens with
  | nil =>
      cases state with
      | space =>
          cases read
          rw [empty rfl]
          rfl
      | token =>
          cases read
          rw [countIn_append, countIn_singleton]
          rfl
      | inquote | escape => cases read
  | cons c rest ih =>
      rw [stringToStringsFrom_cons] at read
      have step : ((tokenStep c state current tokens).1 = .space → _) ∧ _ :=
        countIn_tokenStep c empty
      have split : (c :: rest).count '#' = [c].count '#' + rest.count '#' := by
        rw [← List.count_append, List.singleton_append]
      rw [ih step.1 read]
      omega

/-- The token of an unquoted word goes to the next blank. -/
theorem read_word (read : stringToStringsFrom rest .token current tokens = (out, true)) :
    ∃ more, out =
      tokens ++ String.ofList (current ++ rest.takeWhile (kind · ≠ .whitespace)) :: more := by
  induction rest generalizing current with
  | nil =>
      cases read
      exact ⟨[], by simp⟩
  | cons c rest ih =>
      rw [stringToStringsFrom_cons, tokenStep_eq] at read
      by_cases blank : kind c = .whitespace
      · rw [blank] at read
        have begins := tokens_begin rest .space [] (tokens ++ [String.ofList current])
        dsimp only at read
        rw [read] at begins
        obtain ⟨more, rfl⟩ := begins
        exact ⟨more, by simp [blank]⟩
      · have goes : stringToStringsFrom rest .token (current ++ [c]) tokens = (out, true) := by
          cases which : kind c with
          | whitespace => exact absurd which blank
          | commenters | escape | quotes | word =>
              rw [which] at read
              exact read
        obtain ⟨more, rfl⟩ := ih goes
        exact ⟨more, by simp [blank]⟩

end Emulated

/-- Both parsers take what is left, and read the same tokens. -/
def Same (rest : List Char) (state : TokenState) (current : List Char) (tokens : List String)
    (lexer : State) (token : List Char) (quoted : Bool) (done : List String) : Prop :=
  ∃ out, stringToStringsFrom rest state current tokens = (out, true) ∧
    tokensFrom rest lexer token quoted done = some out

section Apart

variable {rest current token : List Char} {tokens done : List String} {lexer : State}
  {quoted : Bool}

/-- A character of a word which `shlex` leaves out: its token is shorter, or goes on behind the
next blank. -/
theorem not_same_of_lost {c : Char} (unblank : ∀ d ∈ current ++ [c], kind d ≠ .whitespace)
    (inside : lexer = .quotes ∨ lexer = .escape false) :
    ¬ Same rest .token (current ++ [c]) tokens lexer current quoted tokens := by
  rintro ⟨out, emulated, read⟩
  obtain ⟨more, rfl⟩ := read_word emulated
  have spec : Inside lexer ∧ Begun lexer current quoted ∧ pending lexer = 0 := by
    rcases inside with rfl | rfl <;> exact ⟨⟨nofun, nofun⟩, trivial, rfl⟩
  rcases tokensFrom_inside spec.1 spec.2.1 read with ⟨same, -⟩ | ⟨tok, others, same, -, bound⟩
  · simp at same
  · have equal := String.ofList_injective (List.cons.inj (List.append_cancel_left same)).1
    rw [← equal] at bound
    rcases bound with ⟨d, member, blank⟩ | short
    · rcases List.mem_append.mp member with there | there
      · exact unblank d there blank
      · have word := List.mem_takeWhile_imp there
        simp [blank] at word
    · rw [spec.2.2] at short
      simp only [List.length_append, List.length_singleton] at short
      omega

/-- A number sign which only `shlex` leaves out. -/
theorem not_same_of_sign (kept : countIn '#' tokens + current.count '#' =
      countIn '#' done + token.count '#') :
    ¬ Same rest .token (current ++ ['#']) tokens lexer token quoted done := by
  rintro ⟨out, emulated, read⟩
  have inside : TokenState.token = .space → current ++ ['#'] = [] := nofun
  have more := countIn_stringToStringsFrom inside emulated
  have fewer := countIn_tokensFrom_le read
  rw [List.count_append, List.count_singleton_self] at more
  omega

/-- An empty token which only the emulated parser has. -/
theorem not_same_of_empty {state : TokenState} {extra : List String} (empty : "" ∈ extra) :
    ¬ Same rest state current (tokens ++ extra) lexer token quoted tokens := by
  rintro ⟨out, emulated, read⟩
  have begins := tokens_begin rest state current (tokens ++ extra)
  rw [emulated] at begins
  obtain ⟨more, rfl, full⟩ := tokensFrom_more read
  rw [List.prefix_append_right_inj] at begins
  exact full (begins.subset empty)

/-- A token which goes on only for `shlex`. -/
theorem not_same_of_longer {state : TokenState} {tok : List Char} {emitted : List String}
    (inside : Inside lexer) (begun : Begun lexer token quoted) (longer : tok.length < token.length)
    (has : tokens ++ [String.ofList tok] <+: emitted) :
    ¬ Same rest state current emitted lexer token quoted tokens := by
  rintro ⟨out, emulated, read⟩
  have begins := has.trans (tokens_begin rest state current emitted)
  rw [emulated] at begins
  rcases tokensFrom_inside inside begun read with ⟨-, empty⟩ | ⟨other, more, rfl, extends_, -⟩
  · rw [empty] at longer
    exact Nat.not_lt_zero _ longer
  · rw [List.prefix_append_right_inj, List.cons_prefix_cons] at begins
    have same := String.ofList_injective begins.1
    have shorter := extends_.length_le
    rw [← same] at shorter
    omega

/-- A backslash which only `shlex` keeps. -/
theorem not_same_of_backslash {state : TokenState} {c : Char} (inside : state ≠ .space)
    (other : c ≠ '\\') :
    ¬ Same rest state (current ++ [c]) tokens .quotes (current ++ ['\\'] ++ [c]) quoted tokens := by
  rintro ⟨out, emulated, read⟩
  obtain ⟨tok, more, rfl, begins⟩ := current_begins inside emulated
  have quotes : Inside .quotes := ⟨nofun, nofun⟩
  rcases tokensFrom_inside quotes trivial read with ⟨-, empty⟩ | ⟨tok', more', same, begins', -⟩
  · simp at empty
  · rw [(List.cons.inj (List.append_cancel_left same)).1, String.toList_ofList] at begins
    rw [List.append_assoc] at begins'
    have shorter : current ++ [c] <+: current ++ (['\\'] ++ [c]) := by
      refine List.prefix_of_prefix_length_le begins begins' ?_
      simp
    rw [List.prefix_append_right_inj, List.singleton_append, List.cons_prefix_cons] at shorter
    exact other shorter.1

end Apart

/-- Where both parsers are while the string has the common syntax. -/
inductive InStep :
    Form → TokenState → List Char → List String → State → List Char → Bool → List String → Prop
  | space (tokens : List String) : InStep .space .space [] tokens .space [] false tokens
  | word (text : List Char) (tokens : List String) (some : text ≠ [])
      (unblank : ∀ c ∈ text, kind c ≠ .whitespace) :
      InStep .word .token text tokens .word text false tokens
  | quoted (text : List Char) (quoted : Bool) (tokens : List String) :
      InStep (.quoted (decide (text ≠ []))) .inquote text tokens .quotes text quoted tokens
  | escaped (text : List Char) (tokens : List String) :
      InStep .escaped .escape text tokens (.escape true) text true tokens
  | closed (text : List Char) (tokens : List String) (some : text ≠ []) :
      InStep .closed .space [] (tokens ++ [String.ofList text]) .word text true tokens

/-- What is wanted of the rest of the string, wherever the parsers are. -/
def Follows (rest : List Char) : Prop :=
  ∀ form state current tokens lexer token quoted done,
    InStep form state current tokens lexer token quoted done →
      (Same rest state current tokens lexer token quoted done ↔ form.reads rest = true)

section Step

variable {c : Char} {rest current current' token token' : List Char} {tokens tokens' : List String}
  {done : List String} {state state' : TokenState} {lexer lexer' : State} {quoted quoted' : Bool}
  {form form' : Form}

theorem same_cons (step : tokenStep c state current tokens = (state', current', tokens'))
    (read : readChar c lexer token quoted = (lexer', token', quoted', false)) :
    Same (c :: rest) state current tokens lexer token quoted done ↔
      Same rest state' current' tokens' lexer' token' quoted' done := by
  unfold Same
  rw [stringToStringsFrom_cons, step, tokensFrom_cons, read]
  exact Iff.rfl

theorem same_cons_end (step : tokenStep c state current tokens = (state', current', tokens'))
    (read : readChar c lexer token quoted = (lexer', token', quoted', true)) (some : token' ≠ []) :
    Same (c :: rest) state current tokens lexer token quoted done ↔
      Same rest state' current' tokens' lexer' [] false (done ++ [String.ofList token']) := by
  unfold Same
  rw [stringToStringsFrom_cons, step, tokensFrom_cons, read]
  dsimp only
  rw [if_pos rfl, if_neg some]

theorem reads_cons (form : Form) (c : Char) (rest : List Char) :
    form.reads (c :: rest) =
      match form.next (kind c) with
      | some form => form.reads rest
      | none => false := by
  cases form <;> rfl

theorem reads_of_next (next : form.next (kind c) = some form') :
    form.reads (c :: rest) = form'.reads rest := by
  rw [reads_cons, next]

theorem not_reads_of_next (next : form.next (kind c) = none) :
    ¬ form.reads (c :: rest) = true := by
  rw [reads_cons, next]
  exact Bool.false_ne_true

/-- The parsers stay in step. -/
theorem stays (ih : Follows rest)
    (related : InStep form' state' current' tokens' lexer' token' quoted' done)
    (step : tokenStep c state current tokens = (state', current', tokens'))
    (read : readChar c lexer token quoted = (lexer', token', quoted', false))
    (next : form.next (kind c) = some form') :
    Same (c :: rest) state current tokens lexer token quoted done ↔
      form.reads (c :: rest) = true := by
  rw [same_cons step read, reads_of_next next]
  exact ih _ _ _ _ _ _ _ _ related

/-- Both have read the token. -/
theorem stays_end (ih : Follows rest) (some : token ≠ [])
    (step : tokenStep c state current tokens = (.space, [], done ++ [String.ofList token]))
    (read : readChar c lexer token quoted = (.space, token, quoted, true))
    (next : form.next (kind c) = Option.some .space) :
    Same (c :: rest) state current tokens lexer token quoted done ↔
      form.reads (c :: rest) = true := by
  rw [same_cons_end step read some, reads_of_next next]
  exact ih _ _ _ _ _ _ _ _ (.space _)

/-- The parsers part. -/
theorem parts (apart : ¬ Same rest state' current' tokens' lexer' token' quoted' done)
    (step : tokenStep c state current tokens = (state', current', tokens'))
    (read : readChar c lexer token quoted = (lexer', token', quoted', false))
    (next : form.next (kind c) = none) :
    Same (c :: rest) state current tokens lexer token quoted done ↔
      form.reads (c :: rest) = true :=
  iff_of_false (fun same => apart ((same_cons step read).mp same)) (not_reads_of_next next)

variable (tokens) in
theorem same_space_iff (ih : Follows rest) :
    Same (c :: rest) .space [] tokens .space [] false tokens ↔
      Form.space.reads (c :: rest) = true := by
  have spec := kind_spec c
  cases which : kind c with
  | whitespace =>
      exact stays ih (.space tokens) (by rw [tokenStep_eq, which]) (by simp [readChar, which])
        (by rw [which]; rfl)
  | quotes =>
      exact stays ih (.quoted [] false tokens) (by rw [tokenStep_eq, which])
        (by simp [readChar, which]) (by rw [which]; rfl)
  | word =>
      exact stays ih (.word [c] tokens (by simp) (by simp [which]))
        (by rw [tokenStep_eq, which]; rfl) (by simp [readChar, which]) (by rw [which]; rfl)
  | escape =>
      rw [which] at spec
      have apart : ¬ Same rest .token ([] ++ [c]) tokens (.escape false) [] false tokens :=
        not_same_of_lost (by simp [which]) (.inr rfl)
      exact parts apart (by rw [tokenStep_eq, which]) (by simp [readChar, which])
        (by rw [which]; rfl)
  | commenters =>
      rw [which] at spec
      subst spec
      exact parts (not_same_of_sign rfl) rfl rfl rfl

theorem same_word_iff (ih : Follows rest) {text : List Char} (some : text ≠ [])
    (unblank : ∀ c ∈ text, kind c ≠ .whitespace) :
    Same (c :: rest) .token text tokens .word text false tokens ↔
      Form.word.reads (c :: rest) = true := by
  have longer (other : kind c ≠ .whitespace) : ∀ d ∈ text ++ [c], kind d ≠ .whitespace := by
    intro d member
    rcases List.mem_append.mp member with there | there
    · exact unblank d there
    · rwa [List.mem_singleton.mp there]
  cases which : kind c with
  | whitespace =>
      exact stays_end ih some (by rw [tokenStep_eq, which]) (by simp [readChar, which, some])
        (by rw [which]; rfl)
  | word =>
      exact stays ih (.word (text ++ [c]) tokens (by simp) (longer (by simp [which])))
        (by rw [tokenStep_eq, which]) (by simp [readChar, which]) (by rw [which]; rfl)
  | quotes =>
      have apart : ¬ Same rest .token (text ++ [c]) tokens .quotes text false tokens :=
        not_same_of_lost (longer (by simp [which])) (.inl rfl)
      exact parts apart (by rw [tokenStep_eq, which]) (by simp [readChar, which])
        (by rw [which]; rfl)
  | escape =>
      have apart : ¬ Same rest .token (text ++ [c]) tokens (.escape false) text false tokens :=
        not_same_of_lost (longer (by simp [which])) (.inr rfl)
      exact parts apart (by rw [tokenStep_eq, which]) (by simp [readChar, which])
        (by rw [which]; rfl)
  | commenters =>
      have spec := kind_spec c
      rw [which] at spec
      subst spec
      have read : readChar '#' .word text false = (.comment, text, false, true) := by
        simp [readChar, which, some]
      have apart : ¬ Same rest .token (text ++ ['#']) tokens .comment [] false
          (tokens ++ [String.ofList text]) :=
        not_same_of_sign (by rw [countIn_append, countIn_singleton]; rfl)
      refine iff_of_false (fun same => ?_) (not_reads_of_next rfl)
      exact apart ((same_cons_end rfl read some).mp same)

theorem same_quoted_iff (ih : Follows rest) (text : List Char) :
    Same (c :: rest) .inquote text tokens .quotes text quoted tokens ↔
      (Form.quoted (decide (text ≠ []))).reads (c :: rest) = true := by
  have related : InStep (.quoted true) .inquote (text ++ [c]) tokens .quotes (text ++ [c]) true
      tokens := by
    have related := InStep.quoted (text ++ [c]) true tokens
    rwa [decide_eq_true (by simp)] at related
  cases which : kind c with
  | quotes =>
      by_cases empty : text = []
      · subst empty
        have apart : ¬ Same rest .space [] (tokens ++ [""]) .word [] true tokens :=
          not_same_of_empty (List.mem_singleton_self _)
        exact parts apart (by rw [tokenStep_eq, which]) (by simp [readChar, which])
          (by rw [which]; rfl)
      · refine stays ih (.closed text tokens empty) (by rw [tokenStep_eq, which])
          (by simp [readChar, which]) ?_
        rw [which, decide_eq_true empty]
        rfl
  | escape =>
      refine stays ih (.escaped text tokens) (by rw [tokenStep_eq, which])
        (by simp [readChar, which]) ?_
      rw [which]
      cases decide (text ≠ []) <;> rfl
  | whitespace | commenters | word =>
      refine stays ih related (by rw [tokenStep_eq, which]) (by simp [readChar, which]) ?_
      rw [which]
      cases decide (text ≠ []) <;> rfl

theorem same_escaped_iff (ih : Follows rest) (text : List Char) :
    Same (c :: rest) .escape text tokens (.escape true) text true tokens ↔
      Form.escaped.reads (c :: rest) = true := by
  have quoted : InStep (.quoted true) .inquote (text ++ [c]) tokens .quotes (text ++ [c]) true
      tokens := by
    have related := InStep.quoted (text ++ [c]) true tokens
    rwa [decide_eq_true (by simp)] at related
  have parted (state : TokenState) (inside : state ≠ .space) (other : c ≠ '\\') :
      ¬ Same rest state (text ++ [c]) tokens .quotes (text ++ ['\\'] ++ [c]) true tokens :=
    not_same_of_backslash inside other
  have spec := kind_spec c
  cases which : kind c with
  | quotes =>
      exact stays ih quoted (by rw [tokenStep_eq, which]) (by simp [readChar, which])
        (by rw [which]; rfl)
  | escape =>
      exact stays ih quoted (by rw [tokenStep_eq, which]) (by simp [readChar, which])
        (by rw [which]; rfl)
  | whitespace =>
      rw [which] at spec
      have other : c ≠ '\\' := by
        rintro rfl
        simp at spec
      exact parts (parted .escape nofun other) (by rw [tokenStep_eq, which])
        (by simp [readChar, which]) (by rw [which]; rfl)
  | commenters =>
      rw [which] at spec
      exact parts (parted .inquote nofun (by simp [spec])) (by rw [tokenStep_eq, which])
        (by simp [readChar, which]) (by rw [which]; rfl)
  | word =>
      rw [which] at spec
      exact parts (parted .inquote nofun spec.2.2.1) (by rw [tokenStep_eq, which])
        (by simp [readChar, which]) (by rw [which]; rfl)

theorem readChar_escape (c : Char) (inQuotes : Bool) (token : List Char) (quoted : Bool) :
    ∃ lexer token', readChar c (.escape inQuotes) token quoted = (lexer, token', quoted, false) ∧
      Inside lexer ∧ Begun lexer token' quoted ∧ token.length < token'.length := by
  unfold readChar Inside Begun
  cases inQuotes with
  | false => exact ⟨.word, token ++ [c], rfl, by simp, by simp, by simp⟩
  | true => cases kind c <;> exact ⟨.quotes, _, rfl, by simp, trivial, by simp⟩

/-- The emulated parser has read the token, and `shlex` goes on with a character. -/
theorem not_same_of_escape {inQuotes : Bool} {text : List Char} :
    ¬ Same rest state current (tokens ++ [String.ofList text]) (.escape inQuotes) text quoted
      tokens := by
  cases rest with
  | nil =>
      rintro ⟨out, -, read⟩
      cases read
  | cons c rest =>
      obtain ⟨lexer, token, read, inside, begun, longer⟩ := readChar_escape c inQuotes text quoted
      have kept : tokens ++ [String.ofList text] <+:
          (tokenStep c state current (tokens ++ [String.ofList text])).2.2 := by
        rcases tokenStep_tokens c state current (tokens ++ [String.ofList text]) with
          ⟨same, -⟩ | emitted
        · rw [same]
        · rw [emitted]
          exact List.prefix_append _ _
      intro same
      exact not_same_of_longer inside begun longer kept ((same_cons rfl read).mp same)

/-- The same when a quote follows a closing quote. -/
theorem not_same_of_reopened {text : List Char} :
    ¬ Same rest .inquote [] (tokens ++ [String.ofList text]) .quotes text true tokens := by
  cases rest with
  | nil =>
      rintro ⟨out, -, read⟩
      cases read
  | cons c rest =>
      intro same
      cases which : kind c with
      | quotes =>
          have step : tokenStep c .inquote [] (tokens ++ [String.ofList text]) =
              (.space, [], tokens ++ [String.ofList text, ""]) := by
            rw [tokenStep_eq, which]
            simp
          have read : readChar c .quotes text true = (.word, text, true, false) := by
            simp [readChar, which]
          exact not_same_of_empty (by simp) ((same_cons step read).mp same)
      | escape =>
          have step : tokenStep c .inquote [] (tokens ++ [String.ofList text]) =
              (.escape, [], tokens ++ [String.ofList text]) := by
            rw [tokenStep_eq, which]
          have read : readChar c .quotes text true = (.escape true, text, true, false) := by
            simp [readChar, which]
          exact not_same_of_escape ((same_cons step read).mp same)
      | whitespace | commenters | word =>
          have step : tokenStep c .inquote [] (tokens ++ [String.ofList text]) =
              (.inquote, [c], tokens ++ [String.ofList text]) := by
            rw [tokenStep_eq, which]
            rfl
          have read : readChar c .quotes text true = (.quotes, text ++ [c], true, false) := by
            simp [readChar, which]
          refine absurd ((same_cons step read).mp same) ?_
          exact not_same_of_longer ⟨nofun, nofun⟩ trivial (by simp) (List.prefix_refl _)

theorem same_closed_iff (ih : Follows rest) {text : List Char} (some : text ≠ []) :
    Same (c :: rest) .space [] (tokens ++ [String.ofList text]) .word text true tokens ↔
      Form.closed.reads (c :: rest) = true := by
  cases which : kind c with
  | whitespace =>
      exact stays_end ih some (by rw [tokenStep_eq, which]) (by simp [readChar, which])
        (by rw [which]; rfl)
  | quotes =>
      exact parts not_same_of_reopened (by rw [tokenStep_eq, which]) (by simp [readChar, which])
        (by rw [which]; rfl)
  | escape =>
      have apart : ¬ Same rest .token [c] (tokens ++ [String.ofList text]) (.escape false) text true
          tokens := not_same_of_escape
      exact parts apart (by rw [tokenStep_eq, which]; rfl) (by simp [readChar, which])
        (by rw [which]; rfl)
  | commenters =>
      have spec := kind_spec c
      rw [which] at spec
      subst spec
      have read : readChar '#' .word text true = (.comment, text, true, true) := by
        simp [readChar, which]
      have apart : ¬ Same rest .token ([] ++ ['#']) (tokens ++ [String.ofList text]) .comment []
          false (tokens ++ [String.ofList text]) := not_same_of_sign rfl
      refine iff_of_false (fun same => ?_) (not_reads_of_next rfl)
      exact apart ((same_cons_end rfl read some).mp same)
  | word =>
      have apart : ¬ Same rest .token [c] (tokens ++ [String.ofList text]) .word (text ++ [c]) true
          tokens :=
        not_same_of_longer ⟨nofun, nofun⟩ (.inr rfl) (by simp) (List.prefix_refl _)
      exact parts apart (by rw [tokenStep_eq, which]; rfl) (by simp [readChar, which])
        (by rw [which]; rfl)

end Step

/-- The parsers stay in step as long as the string has the common syntax, and no longer. -/
theorem follows (rest : List Char) : Follows rest := by
  induction rest with
  | nil =>
      intro form state current tokens lexer token quoted done related
      unfold Same
      cases related with
      | space => simp [stringToStringsFrom, tokensFrom, Form.reads]
      | word text tokens some unblank =>
          simp [stringToStringsFrom, tokensFrom, Form.reads, some]
      | quoted => simp [stringToStringsFrom, Form.reads]
      | escaped => simp [stringToStringsFrom, Form.reads]
      | closed text tokens some => simp [stringToStringsFrom, tokensFrom, Form.reads, some]
  | cons c rest ih =>
      intro form state current tokens lexer token quoted done related
      cases related with
      | space => exact same_space_iff tokens ih
      | word text tokens some unblank => exact same_word_iff ih some unblank
      | quoted => exact same_quoted_iff ih current
      | escaped => exact same_escaped_iff ih current
      | closed text tokens some => exact same_closed_iff ih some

/-- The parsers agree on exactly the strings which have the common syntax, and on those which
both leave open. -/
theorem agree_iff (s : String) :
    Agree s ↔ Conforms s ∨ LeftOpen s ∧ LeftOpenShlex s := by
  have same := follows s.toList _ _ _ _ _ _ _ _ (.space [])
  have rejected := rejects_iff s.toList .space [] []
  have raised : tokensFrom s.toList .space [] false [] = none ↔ LeftOpenShlex s :=
    tokensFrom_eq_none_iff ⟨rfl, rfl⟩
  change Same _ _ _ _ _ _ _ _ ↔ Conforms s at same
  change _ ↔ LeftOpen s at rejected
  unfold Same at same
  unfold Agree stringToStrings Smallut.stringToStrings
  cases emulated : stringToStringsFrom s.toList .space [] [] with
  | mk out ok =>
      rw [emulated] at same rejected
      rw [← same, ← raised]
      cases ok with
      | false =>
          have leftOpen : LeftOpen s := rejected.mp rfl
          simp [leftOpen]
      | true =>
          have closed : ¬ LeftOpen s := fun leftOpen => Bool.noConfusion (rejected.mpr leftOpen)
          simp [closed, eq_comm]

/-- A comment, a backslash in a word, a quote in a word, another escape in quotes, and an empty
token. -/
theorem not_agree :
    ¬ Agree "a#b c" ∧ ¬ Agree "a\\b" ∧ ¬ Agree "a\"b\"" ∧ ¬ Agree "\"a\\b\"" ∧ ¬ Agree "\"\" a" :=
  ⟨by decide, by decide, by decide, by decide, by decide⟩

end Upmpdcli.Shlex
