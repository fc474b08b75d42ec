import Mathlib.Data.List.Count
import Upmpdcli.Smallut

set_option autoImplicit false

/- Which lists of tokens `stringToStrings` reads back from what `stringsToString` writes. -/
namespace Upmpdcli.Smallut

/-- One turn of the loop of `stringToStrings`. -/
def tokenStep (c : Char) (state : TokenState) (current : List Char) (tokens : List String) :
    TokenState × List Char × List String :=
  if c = '"' then
    match state with
    | .space => (.inquote, current, tokens)
    | .token => (.token, current ++ ['"'], tokens)
    | .inquote => (.space, [], tokens ++ [String.ofList current])
    | .escape => (.inquote, current ++ ['"'], tokens)
  else if c = '\\' then
    match state with
    | .space | .token => (.token, current ++ ['\\'], tokens)
    | .inquote => (.escape, current, tokens)
    | .escape => (.inquote, current ++ ['\\'], tokens)
  else if c = ' ' ∨ c = '\t' ∨ c = '\n' ∨ c = '\r' then
    match state with
    | .space => (.space, current, tokens)
    | .token => (.space, [], tokens ++ [String.ofList current])
    | .inquote => (.inquote, current ++ [c], tokens)
    | .escape => (.escape, current ++ [c], tokens)
  else
    match state with
    | .space | .token => (.token, current ++ [c], tokens)
    | .inquote | .escape => (.inquote, current ++ [c], tokens)

theorem stringToStringsFrom_cons (c : Char) (rest : List Char) (state : TokenState)
    (current : List Char) (tokens : List String) :
    stringToStringsFrom (c :: rest) state current tokens =
      stringToStringsFrom rest (tokenStep c state current tokens).1
        (tokenStep c state current tokens).2.1 (tokenStep c state current tokens).2.2 := by
  by_cases quote : c = '"'
  · subst quote
    cases state <;> rfl
  · by_cases backslash : c = '\\'
    · subst backslash
      cases state <;> rfl
    · unfold tokenStep
      rw [if_neg quote, if_neg backslash]
      rw [stringToStringsFrom.eq_def]
      by_cases blank : c = ' ' ∨ c = '\t' ∨ c = '\n' ∨ c = '\r'
      · cases state <;> simp [quote, backslash, blank]
      · cases state <;> simp [quote, backslash, blank]

theorem tokenStep_tokens (c : Char) (state : TokenState) (current : List Char)
    (tokens : List String) :
    ((tokenStep c state current tokens).2.2 = tokens ∧
        (state ≠ .space → (tokenStep c state current tokens).1 ≠ .space ∧
          current <+: (tokenStep c state current tokens).2.1)) ∨
      (tokenStep c state current tokens).2.2 = tokens ++ [String.ofList current] := by
  have more : current <+: current ++ [c] := List.prefix_append current [c]
  unfold tokenStep
  split
  · rename_i quote
    cases state with
    | inquote => exact .inr rfl
    | space | token | escape => simp
  · split
    · cases state <;> simp
    · split
      · cases state with
        | token => exact .inr rfl
        | space | inquote | escape => simp
      · cases state <;> simp

/-- The tokens which have been read stay. -/
theorem tokens_begin (rest : List Char) (state : TokenState) (current : List Char)
    (tokens : List String) : tokens <+: (stringToStringsFrom rest state current tokens).1 := by
  induction rest generalizing state current tokens with
  | nil =>
      cases state with
      | token => exact List.prefix_append tokens _
      | space | inquote | escape => exact List.prefix_refl tokens
  | cons c rest ih =>
      rw [stringToStringsFrom_cons]
      rcases tokenStep_tokens c state current tokens with ⟨same, -⟩ | emitted
      · have later := ih (tokenStep c state current tokens).1
          (tokenStep c state current tokens).2.1 (tokenStep c state current tokens).2.2
        rwa [same] at later ⊢
      · refine List.IsPrefix.trans ?_ (ih _ _ _)
        rw [emitted]
        exact List.prefix_append tokens _

/-- Inside a token, the next token begins with what has been read of it. -/
theorem current_begins {rest : List Char} {state : TokenState} {current : List Char}
    {tokens out : List String} (inside : state ≠ .space)
    (read : stringToStringsFrom rest state current tokens = (out, true)) :
    ∃ tok more, out = tokens ++ tok :: more ∧ current <+: tok.toList := by
  induction rest generalizing state current with
  | nil =>
      cases state with
      | space => exact absurd rfl inside
      | token =>
          cases read
          exact ⟨String.ofList current, [], rfl, by rw [String.toList_ofList]⟩
      | inquote | escape => cases read
  | cons c rest ih =>
      rw [stringToStringsFrom_cons] at read
      rcases tokenStep_tokens c state current tokens with ⟨same, inside'⟩ | emitted
      · rw [same] at read
        obtain ⟨inside', longer⟩ := inside' inside
        obtain ⟨tok, more, rfl, begins⟩ := ih inside' read
        exact ⟨tok, more, rfl, longer.trans begins⟩
      · have later := tokens_begin rest (tokenStep c state current tokens).1
          (tokenStep c state current tokens).2.1 (tokenStep c state current tokens).2.2
        rw [read, emitted] at later
        obtain ⟨more, rfl⟩ := later
        refine ⟨String.ofList current, more, by simp, by rw [String.toList_ofList]⟩

/-- How often a character is in some tokens. -/
def countIn (c : Char) (tokens : List String) : Nat :=
  (tokens.flatMap String.toList).count c

theorem countIn_append (c : Char) (tokens tokens' : List String) :
    countIn c (tokens ++ tokens') = countIn c tokens + countIn c tokens' := by
  rw [countIn, List.flatMap_append, List.count_append, ← countIn, ← countIn]

theorem countIn_singleton (c : Char) (tok : List Char) :
    countIn c [String.ofList tok] = tok.count c := by
  rw [countIn, List.flatMap_singleton, String.toList_ofList]

theorem countIn_tokenStep_le (c d : Char) (state : TokenState) (current : List Char)
    (tokens : List String) :
    countIn c (tokenStep d state current tokens).2.2 +
      (tokenStep d state current tokens).2.1.count c ≤
        countIn c tokens + current.count c + [d].count c := by
  unfold tokenStep
  split
  · rename_i quote
    rw [quote]
    cases state <;> simp [countIn_append, countIn_singleton] <;> omega
  · split
    · rename_i backslash
      rw [backslash]
      cases state <;> simp <;> omega
    · split
      · cases state <;> simp [countIn_append, countIn_singleton] <;> omega
      · cases state <;> simp <;> omega

/-- No character of the tokens comes from nowhere. -/
theorem countIn_le (c : Char) (rest : List Char) (state : TokenState) (current : List Char)
    (tokens : List String) :
    countIn c (stringToStringsFrom rest state current tokens).1 ≤
      countIn c tokens + current.count c + rest.count c := by
  induction rest generalizing state current tokens with
  | nil =>
      cases state with
      | token =>
          show countIn c (tokens ++ [String.ofList current]) ≤ _
          rw [countIn_append, countIn_singleton]
          exact Nat.le_add_right _ _
      | space | inquote | escape =>
          exact (Nat.le_add_right _ _).trans (Nat.le_add_right _ _)
  | cons d rest ih =>
      rw [stringToStringsFrom_cons]
      have step := countIn_tokenStep_le c d state current tokens
      have later := ih (tokenStep d state current tokens).1
        (tokenStep d state current tokens).2.1 (tokenStep d state current tokens).2.2
      have split : (d :: rest).count c = [d].count c + rest.count c := by
        rw [← List.count_append, List.singleton_append]
      omega

/-- The tokens which come back: quoted ones without a backslash, and others without quotes
and carriage returns. -/
def Returns (tok : List Char) : Prop :=
  tok = [] ∨ hasblanks tok = true ∧ '\\' ∉ tok ∨
    hasblanks tok = false ∧ '"' ∉ tok ∧ '\r' ∉ tok

instance : DecidablePred Returns := fun _ => inferInstanceAs (Decidable (_ ∨ _))

theorem escapeQuote_of_ne {c : Char} (other : c ≠ '"') : escapeQuote c = [c] := if_neg other

theorem flatMap_escapeQuote {tok : List Char} (unquoted : '"' ∉ tok) :
    tok.flatMap escapeQuote = tok := by
  induction tok with
  | nil => rfl
  | cons c rest ih =>
      rw [List.mem_cons, not_or] at unquoted
      rw [List.flatMap_cons, escapeQuote_of_ne (Ne.symm unquoted.1), ih unquoted.2]
      rfl

section Run

variable (rest : List Char) (current : List Char) (tokens : List String)

/-- Any character but two stands for itself between quotes. -/
theorem tokenStep_inquote {c : Char} (notQuote : c ≠ '"') (notBackslash : c ≠ '\\') :
    tokenStep c .inquote current tokens = (.inquote, current ++ [c], tokens) := by
  unfold tokenStep
  rw [if_neg notQuote, if_neg notBackslash]
  split <;> rfl

/-- A character of an unquoted token. -/
def Bare (c : Char) : Prop := c ≠ '"' ∧ c ≠ '\r' ∧ ¬ " \t\n".toList.contains c

theorem tokenStep_bare {c : Char} (bare : Bare c) {state : TokenState}
    (unquoted : state = .space ∨ state = .token) :
    tokenStep c state current tokens = (.token, current ++ [c], tokens) := by
  obtain ⟨notQuote, notReturn, notBlank⟩ := bare
  have separates : ¬ (c = ' ' ∨ c = '\t' ∨ c = '\n' ∨ c = '\r') := by
    simpa [notReturn] using notBlank
  unfold tokenStep
  rw [if_neg notQuote, if_neg separates]
  rcases unquoted with rfl | rfl
  · split
    · rename_i backslash
      rw [backslash]
    · rfl
  · split
    · rename_i backslash
      rw [backslash]
    · rfl

theorem read_quoted {text : List Char} (plain : '\\' ∉ text) :
    stringToStringsFrom (text.flatMap escapeQuote ++ rest) .inquote current tokens =
      stringToStringsFrom rest .inquote (current ++ text) tokens := by
  induction text generalizing current with
  | nil => rw [List.append_nil]; rfl
  | cons c text ih =>
      rw [List.mem_cons, not_or] at plain
      rw [List.flatMap_cons, List.append_assoc]
      have later := ih (current ++ [c]) plain.2
      rw [List.append_assoc, List.singleton_append] at later
      by_cases quote : c = '"'
      · subst quote
        exact later
      · rw [escapeQuote_of_ne quote, List.singleton_append, stringToStringsFrom_cons,
          tokenStep_inquote current tokens quote (Ne.symm plain.1)]
        exact later

theorem read_bare {text : List Char} (bare : ∀ c ∈ text, Bare c) :
    stringToStringsFrom (text ++ rest) .token current tokens =
      stringToStringsFrom rest .token (current ++ text) tokens := by
  induction text generalizing current with
  | nil => rw [List.append_nil]; rfl
  | cons c text ih =>
      obtain ⟨first, others⟩ := List.forall_mem_cons.mp bare
      rw [List.cons_append, stringToStringsFrom_cons,
        tokenStep_bare current tokens first (.inr rfl)]
      have later := ih (current ++ [c]) others
      rwa [List.append_assoc, List.singleton_append] at later

/-- The beginning of an unquoted token. -/
theorem read_first {text : List Char} (bare : ∀ c ∈ text, Bare c) (some : text ≠ []) :
    stringToStringsFrom (text ++ rest) .space [] tokens =
      stringToStringsFrom rest .token text tokens := by
  cases text with
  | nil => exact absurd rfl some
  | cons c text =>
      obtain ⟨first, others⟩ := List.forall_mem_cons.mp bare
      rw [List.cons_append, stringToStringsFrom_cons, tokenStep_bare [] tokens first (.inl rfl)]
      exact read_bare rest [c] tokens others

theorem bare_of_returns {tok : List Char} (unblank : hasblanks tok = false) (unquoted : '"' ∉ tok)
    (unreturned : '\r' ∉ tok) : ∀ c ∈ tok, Bare c := by
  intro c member
  refine ⟨fun same => unquoted (same ▸ member), fun same => unreturned (same ▸ member), ?_⟩
  exact List.any_eq_false.mp unblank c member

/-- A token which comes back. -/
theorem read_returns {tok : List Char} (returns : Returns tok) :
    stringToStringsFrom (encodeToken tok ++ rest) .space [] tokens =
      stringToStringsFrom rest .space [] (tokens ++ [String.ofList tok]) := by
  unfold encodeToken
  rcases returns with rfl | ⟨blank, plain⟩ | ⟨unblank, unquoted, unreturned⟩
  · rfl
  · have some : tok ≠ [] := by
      rintro rfl
      cases blank
    rw [if_neg some, if_pos blank]
    have read := read_quoted ('"' :: ' ' :: rest) [] tokens plain
    simpa [stringToStringsFrom_cons, tokenStep] using read
  · by_cases some : tok = []
    · rw [some]
      rfl
    · rw [if_neg some, if_neg (by simp [unblank]), flatMap_escapeQuote unquoted]
      have read := read_first (' ' :: rest) tokens
        (bare_of_returns unblank unquoted unreturned) some
      simpa [stringToStringsFrom_cons, tokenStep] using read

end Run

section Miss

variable {rest current tok : List Char} {tokens more : List String} {state : TokenState}

theorem read_misses (inside : state ≠ .space) (misses : ¬ current <+: tok) :
    stringToStringsFrom rest state current tokens ≠
      (tokens ++ String.ofList tok :: more, true) := by
  intro read
  obtain ⟨first, others, same, begins⟩ := current_begins inside read
  cases List.append_cancel_left same
  rw [String.toList_ofList] at begins
  exact misses begins

theorem read_other {other : List Char} {ended : Bool} (different : other ≠ tok) :
    stringToStringsFrom rest state current (tokens ++ [String.ofList other]) ≠
      (tokens ++ String.ofList tok :: more, ended) := by
  intro read
  have begins := tokens_begin rest state current (tokens ++ [String.ofList other])
  rw [read, List.prefix_append_right_inj, List.cons_prefix_cons] at begins
  exact different (String.ofList_injective begins.1)

/-- Behind fewer backslashes stands something else. -/
theorem backslashes_apart {text : List Char} {c : Char} {read written : Nat}
    (fewer : read < written) (other : c ≠ '\\') :
    ¬ current ++ List.replicate read '\\' ++ [c] <+:
      current ++ List.replicate written '\\' ++ text := by
  obtain ⟨left, rfl⟩ := Nat.exists_eq_add_of_lt fewer
  rw [Nat.add_assoc, List.replicate_add, List.append_assoc, List.append_assoc, List.append_assoc,
    List.prefix_append_right_inj, List.prefix_append_right_inj, List.replicate_succ,
    List.cons_append, List.cons_prefix_cons]
  exact fun begins => other begins.1

theorem length_backslashes {text : List Char} {read written : Nat} (fewer : read < written) :
    current ++ List.replicate read '\\' ≠ current ++ List.replicate written '\\' ++ text := by
  intro same
  have length := congrArg List.length same
  simp only [List.length_append, List.length_replicate] at length
  omega

/-- Between quotes, a run of backslashes is read as half as many. -/
theorem read_backslashes {text : List Char} {read written : Nat} (fewer : read < written)
    (quoted : state = .inquote ∨ state = .escape) :
    stringToStringsFrom (text.flatMap escapeQuote ++ '"' :: rest) state
      (current ++ List.replicate read '\\') tokens ≠
        (tokens ++ String.ofList (current ++ List.replicate written '\\' ++ text) :: more, true) := by
  induction text generalizing read written state with
  | nil =>
      rw [List.flatMap_nil, List.nil_append, stringToStringsFrom_cons]
      rcases quoted with rfl | rfl
      · exact read_other (length_backslashes fewer)
      · exact read_misses nofun (backslashes_apart fewer (by decide))
  | cons c text ih =>
      by_cases backslash : c = '\\'
      · subst backslash
        have longer : List.replicate written '\\' ++ '\\' :: text =
            List.replicate (written + 1) '\\' ++ text := by
          rw [List.replicate_succ', List.append_assoc, List.singleton_append]
        rw [List.flatMap_cons, escapeQuote_of_ne (by decide), List.append_assoc,
          List.singleton_append, stringToStringsFrom_cons, List.append_assoc, longer,
          ← List.append_assoc]
        rcases quoted with rfl | rfl
        · exact ih (Nat.lt_succ_of_lt fewer) (.inr rfl)
        · have once : stringToStringsFrom (text.flatMap escapeQuote ++ '"' :: rest) .inquote
              (current ++ List.replicate (read + 1) '\\') tokens ≠ _ :=
            ih (Nat.succ_lt_succ fewer) (.inl rfl)
          rwa [List.replicate_succ', ← List.append_assoc] at once
      · by_cases quote : c = '"'
        · subst quote
          show stringToStringsFrom ('\\' :: '"' :: _) _ _ _ ≠ _
          rw [stringToStringsFrom_cons, stringToStringsFrom_cons]
          rcases quoted with rfl | rfl
          · exact read_misses nofun (backslashes_apart fewer (by decide))
          · refine read_other fun same => ?_
            have length := congrArg List.length same
            simp [tokenStep] at length
            omega
        · rw [List.flatMap_cons, escapeQuote_of_ne quote, List.append_assoc, List.singleton_append,
            stringToStringsFrom_cons]
          have read : ∃ state', state' ≠ .space ∧
              tokenStep c state (current ++ List.replicate read '\\') tokens =
                (state', current ++ List.replicate read '\\' ++ [c], tokens) := by
            unfold tokenStep
            rw [if_neg quote, if_neg backslash]
            rcases quoted with rfl | rfl
            · exact ⟨.inquote, nofun, by split <;> rfl⟩
            · split
              · exact ⟨.escape, nofun, rfl⟩
              · exact ⟨.inquote, nofun, rfl⟩
          obtain ⟨state', inside, step⟩ := read
          rw [step]
          exact read_misses inside (backslashes_apart fewer backslash)

end Miss

theorem count_escapeQuote (tok : List Char) :
    (tok.flatMap escapeQuote).count '\r' = tok.count '\r' := by
  induction tok with
  | nil => rfl
  | cons c rest ih =>
      rw [List.flatMap_cons, List.count_append, ih, ← List.singleton_append, List.count_append]
      congr 1
      by_cases quote : c = '"'
      · subst quote
        rfl
      · rw [escapeQuote_of_ne quote]

theorem count_encodeToken (tok : List Char) :
    (encodeToken tok).count '\r' = tok.count '\r' := by
  unfold encodeToken
  split
  · rename_i empty
    rw [empty]
    rfl
  · dsimp only
    rw [List.count_append, List.count_append, List.count_append, count_escapeQuote]
    split <;> simp

theorem count_encoded (tokens : List String) :
    (tokens.flatMap fun tok => encodeToken tok.toList).count '\r' = countIn '\r' tokens := by
  induction tokens with
  | nil => rfl
  | cons tok rest ih =>
      rw [List.flatMap_cons, List.count_append, count_encodeToken, ih, countIn, countIn,
        List.flatMap_cons, List.count_append]

/-- An unquoted token up to its first quote or carriage return. -/
theorem read_until {text : List Char} (bare : ∀ c ∈ text, Bare c) (rest : List Char)
    (tokens : List String) :
    ∃ state, (state = .space ∨ state = .token) ∧ (state = .space → text = []) ∧
      stringToStringsFrom (text ++ rest) .space [] tokens =
        stringToStringsFrom rest state text tokens := by
  by_cases some : text = []
  · rw [some]
    exact ⟨.space, .inl rfl, fun _ => rfl, rfl⟩
  · exact ⟨.token, .inr rfl, nofun, read_first rest tokens bare some⟩

theorem encodeToken_of_hasblanks {tok : List Char} (blank : hasblanks tok = true) :
    encodeToken tok = '"' :: (tok.flatMap escapeQuote ++ ['"', ' ']) := by
  have some : tok ≠ [] := by
    rintro rfl
    cases blank
  unfold encodeToken
  rw [if_neg some, if_pos blank]
  simp

theorem encodeToken_of_not_hasblanks {tok : List Char} (some : tok ≠ [])
    (unblank : hasblanks tok = false) : encodeToken tok = tok.flatMap escapeQuote ++ [' '] := by
  unfold encodeToken
  rw [if_neg some, if_neg (by simp [unblank])]
  simp

/-- A backslash between quotes is not read as itself. -/
theorem read_backslash {tok : List Char} (blank : hasblanks tok = true) (backslash : '\\' ∈ tok)
    (rest : List Char) (tokens more : List String) :
    stringToStringsFrom (encodeToken tok ++ rest) .space [] tokens ≠
      (tokens ++ String.ofList tok :: more, true) := by
  obtain ⟨before, after, rfl, plain⟩ := List.eq_append_cons_of_mem backslash
  have halved : stringToStringsFrom (after.flatMap escapeQuote ++ '"' :: ' ' :: rest) .escape
      (before ++ List.replicate 0 '\\') tokens ≠
        (tokens ++ String.ofList (before ++ List.replicate 1 '\\' ++ after) :: more, true) :=
    read_backslashes Nat.zero_lt_one (.inr rfl)
  have read := read_quoted ('\\' :: (after.flatMap escapeQuote ++ '"' :: ' ' :: rest)) [] tokens
    plain
  rw [encodeToken_of_hasblanks blank, List.cons_append, stringToStringsFrom_cons]
  simp only [List.flatMap_append, List.flatMap_cons, List.append_assoc]
  show stringToStringsFrom (before.flatMap escapeQuote ++
    '\\' :: (after.flatMap escapeQuote ++ '"' :: ' ' :: rest)) .inquote [] tokens ≠ _
  rw [read, stringToStringsFrom_cons]
  simpa [tokenStep] using halved

/-- Outside quotes, a quote has got a backslash which is read as one. -/
theorem read_quote {before after : List Char} (bare : ∀ c ∈ before, Bare c)
    (rest : List Char) (tokens more : List String) :
    stringToStringsFrom (before ++ '\\' :: '"' :: rest) .space [] tokens ≠
      (tokens ++ String.ofList (before ++ '"' :: after) :: more, true) := by
  obtain ⟨state, unquoted, -, read⟩ := read_until bare ('\\' :: '"' :: rest) tokens
  have step : tokenStep '\\' state before tokens = (.token, before ++ ['\\'], tokens) := by
    rcases unquoted with rfl | rfl <;> rfl
  rw [read, stringToStringsFrom_cons, step]
  refine read_misses nofun ?_
  rw [List.prefix_append_right_inj, List.cons_prefix_cons]
  exact fun begins => absurd begins.1 (by decide)

/-- Outside quotes, a carriage return is in no token. -/
theorem read_return {before after : List Char} (bare : ∀ c ∈ before, Bare c) {rest : List Char}
    {more : List String} (same : rest.count '\r' = after.count '\r' + countIn '\r' more)
    (tokens : List String) :
    stringToStringsFrom (before ++ '\r' :: rest) .space [] tokens ≠
      (tokens ++ String.ofList (before ++ '\r' :: after) :: more, true) := by
  obtain ⟨state, unquoted, empty, read⟩ := read_until bare ('\r' :: rest) tokens
  have none : before.count '\r' = 0 := List.count_eq_zero.mpr fun member => (bare _ member).2.1 rfl
  have step : ∃ tokens', tokenStep '\r' state before tokens = (.space, [], tokens') ∧
      countIn '\r' tokens' = countIn '\r' tokens := by
    rcases unquoted with rfl | rfl
    · rw [empty rfl]
      exact ⟨tokens, rfl, rfl⟩
    · refine ⟨tokens ++ [String.ofList before], rfl, ?_⟩
      rw [countIn_append, countIn_singleton, none]
      rfl
  obtain ⟨tokens', step, kept⟩ := step
  rw [read, stringToStringsFrom_cons, step]
  intro all
  have fewer := countIn_le '\r' rest .space [] tokens'
  rw [show (tokens ++ String.ofList (before ++ '\r' :: after) :: more) =
    tokens ++ ([String.ofList (before ++ '\r' :: after)] ++ more) from rfl] at all
  rw [all, countIn_append, countIn_append, countIn_singleton, List.count_append,
    List.count_cons_self, List.count_nil, kept, none, same] at fewer
  omega

/-- A token which does not come back. -/
theorem read_not_returns {tok : String} (changes : ¬ Returns tok.toList)
    (tokens more : List String) :
    stringToStringsFrom (encodeToken tok.toList ++ more.flatMap fun tok => encodeToken tok.toList)
      .space [] tokens ≠ (tokens ++ tok :: more, true) := by
  unfold Returns at changes
  simp only [not_or, not_and, not_not] at changes
  obtain ⟨some, backslash, special⟩ := changes
  rw [← String.ofList_toList (s := tok)]
  generalize tok.toList = tok at some backslash special ⊢
  rw [String.toList_ofList]
  cases blank : hasblanks tok with
  | true => exact read_backslash blank (backslash blank) _ tokens more
  | false =>
      have found : ∃ c ∈ tok, decide (c = '"' ∨ c = '\r') = true := by
        by_cases quote : '"' ∈ tok
        · exact ⟨'"', quote, by decide⟩
        · exact ⟨'\r', special blank quote, by decide⟩
      obtain ⟨c, first⟩ := Option.isSome_iff_exists.mp (List.find?_isSome.mpr found)
      obtain ⟨which, before, after, rfl, others⟩ := List.find?_eq_some_iff_append.mp first
      have bare : ∀ c ∈ before, Bare c := by
        intro c member
        have other := others c member
        simp only [Bool.not_eq_true', decide_eq_false_iff_not, not_or] at other
        refine ⟨other.1, other.2, ?_⟩
        exact List.any_eq_false.mp blank c (List.mem_append_left _ member)
      have unquoted : '"' ∉ before := fun member => (bare _ member).1 rfl
      rw [encodeToken_of_not_hasblanks some blank, List.flatMap_append,
        flatMap_escapeQuote unquoted, List.flatMap_cons, List.append_assoc, List.append_assoc]
      rcases of_decide_eq_true which with rfl | rfl
      · exact read_quote bare _ tokens more
      · refine read_return bare ?_ tokens
        show (after.flatMap escapeQuote ++
          ([' '] ++ more.flatMap fun tok => encodeToken tok.toList)).count '\r' = _
        rw [List.count_append, List.count_append, count_escapeQuote, count_encoded]
        simp

/-- The blank at the end changes nothing. -/
theorem read_last_blank (text : List Char) (state : TokenState) (current : List Char)
    (tokens : List String) :
    stringToStringsFrom (text ++ [' ']) state current tokens =
      stringToStringsFrom text state current tokens := by
  induction text generalizing state current tokens with
  | nil => cases state <;> rfl
  | cons c rest ih =>
      rw [List.cons_append, stringToStringsFrom_cons, stringToStringsFrom_cons]
      exact ih _ _ _

theorem encodeToken_blank (tok : List Char) : ∃ text, encodeToken tok = text ++ [' '] := by
  unfold encodeToken
  split
  · exact ⟨['"', '"'], rfl⟩
  · exact ⟨_, rfl⟩

theorem stringToStrings_stringsToString (tokens : List String) :
    stringToStrings (stringsToString tokens) =
      stringToStringsFrom (tokens.flatMap fun tok => encodeToken tok.toList) .space [] [] := by
  unfold stringToStrings stringsToString
  rw [String.toList_ofList]
  rcases List.eq_nil_or_concat tokens with rfl | ⟨before, last, rfl⟩
  · rfl
  · obtain ⟨text, ends⟩ := encodeToken_blank last.toList
    rw [List.concat_eq_append, List.flatMap_append, List.flatMap_singleton, ends,
      ← List.append_assoc, List.dropLast_concat, read_last_blank]

/-- Reading what is written for some tokens behind others. -/
theorem read_encoded_iff (tokens : List String) (done : List String) :
    stringToStringsFrom (tokens.flatMap fun tok => encodeToken tok.toList) .space [] done =
      (done ++ tokens, true) ↔ ∀ tok ∈ tokens, Returns tok.toList := by
  induction tokens generalizing done with
  | nil => simp [stringToStringsFrom]
  | cons tok rest ih =>
      rw [List.flatMap_cons, List.forall_mem_cons]
      by_cases returns : Returns tok.toList
      · have later := ih (done ++ [tok])
        rw [List.append_assoc, List.singleton_append] at later
        rw [read_returns _ done returns, String.ofList_toList, later, and_iff_right returns]
      · exact iff_of_false (read_not_returns returns done rest) fun all => returns all.1

/-- A list comes back if and only if each of its tokens does. -/
theorem roundTrip_iff (tokens : List String) :
    stringToStrings (stringsToString tokens) = (tokens, true) ↔
      ∀ tok ∈ tokens, Returns tok.toList := by
  rw [stringToStrings_stringsToString]
  exact read_encoded_iff tokens []

/-- A single quote sign comes back with a backslash in front of it, and a backslash in front
of a quoted blank is lost. -/
theorem roundTrip_loses :
    stringToStrings (stringsToString ["\""]) = (["\\\""], true) ∧
      stringToStrings (stringsToString ["a\\ b"]) = (["a b"], true) ∧
        ¬ ∀ tokens, stringToStrings (stringsToString tokens) = (tokens, true) := by
  refine ⟨by decide, by decide, fun all => ?_⟩
  exact absurd (all ["\""]) (by decide)

end Upmpdcli.Smallut
