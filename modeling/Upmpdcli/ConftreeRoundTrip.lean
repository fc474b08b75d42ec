import Upmpdcli.ConftreeSound

set_option autoImplicit false

/- What is read back from the file which is written after a variable has been set. -/
namespace Upmpdcli.Conftree

open Strip (Stripped)

/-- The line is read back as one which goes on on the next line. -/
def Continues (data : Bytes) : Prop :=
  let line := trimstring (rtrimstring data lineEnds) blanks
  line.head? ≠ some (byte '#') ∧ line.getLast? = some (byte '\\')

instance (data : Bytes) : Decidable (Continues data) := inferInstanceAs (Decidable (_ ∧ _))

/-- No comment swallows the line which is written behind it. -/
def Clean (conf : ConfSimple) : Prop :=
  ∀ line ∈ conf.order, line.kind = .comment ∨ line.kind = .varcomment → ¬ Continues line.data

/-- How a value is printed: in one piece, or cut behind which there is always something left. -/
inductive Broken : Bytes → Bytes → Prop
  | whole (value : Bytes) : Broken value value
  | cut (front : Bytes) {back printed : Bytes} (filled : back ≠ []) (rest : Broken back printed) :
      Broken (front ++ back) (front ++ byte '\\' :: byte '\n' :: printed)

theorem Broken.cons (c : UInt8) {value printed : Bytes} (broken : Broken value printed) :
    Broken (c :: value) (c :: printed) := by
  cases broken with
  | whole => exact .whole _
  | cut front filled rest => exact .cut (c :: front) filled rest

theorem breakLoop_broken (ll : Nat) (value : Bytes) : Broken value (breakLoop ll value) := by
  induction value generalizing ll with
  | nil => exact .whole []
  | cons c rest ih =>
      unfold breakLoop
      split
      · rename_i long
        refine Broken.cut [c] ?_ (ih 0)
        rintro rfl
        have few := long.2.1
        simp at few
      · exact (ih (ll + 1)).cons c

theorem varprinter_broken {nm : Bytes} (filled : nm ≠ []) (value : Bytes) :
    ∃ printed, Broken value printed ∧
      varprinter nm value =
        nm ++ [byte ' ', byte '=', byte ' '] ++ printed ++ [byte '\n'] := by
  unfold varprinter
  rw [if_neg filled]
  dsimp only
  split
  · exact ⟨_, .whole value, rfl⟩
  · exact ⟨_, breakLoop_broken 0 value, rfl⟩

section

variable {path_tildexpand : Bytes → Bytes} {s : ParseState} {cline : Bytes}

/-- Only the end of the file stops the parser. -/
theorem ParseState.next_more (s : ParseState) (cline : Bytes) :
    (s.next path_tildexpand cline false).2 = false := by
  unfold ParseState.next ParseState.takeLine
  dsimp only
  split
  · rfl
  · split
    · rfl
    · split
      · rfl
      · split
        · rfl
        · split <;> rfl

theorem parseLoop_line (one_line : byte '\n' ∉ cline) (more : Bytes) :
    parseLoop path_tildexpand (cline ++ byte '\n' :: more) s =
      parseLoop path_tildexpand more (s.next path_tildexpand cline false).1 :=
  parseLoop_more (Lines.cut_append one_line more) (Prod.ext rfl (s.next_more cline))

theorem ParseState.joined_of_flags (flags : s.conf.flags = {}) (cline : Bytes) :
    s.joined cline = trimstring (s.pending ++ rtrimstring cline lineEnds) blanks := by
  unfold ParseState.joined ParseState.pending
  rw [flags]
  cases s.appending <;> rfl

theorem ParseState.next_complete {line : Bytes} (joined : s.joined cline = line)
    (filled : line ≠ []) (no_comment : line.head? ≠ some (byte '#'))
    (complete : line.getLast? ≠ some (byte '\\')) (eof : Bool) :
    s.next path_tildexpand cline eof =
      { s with line := line, appending := false }.takeLine path_tildexpand eof := by
  unfold ParseState.next
  dsimp only
  rw [joined, if_neg (not_or_intro filled no_comment), if_neg complete]

theorem rtrimstring_of_last {bytes ws : Bytes}
    (last : ∀ c, bytes.getLast? = some c → ws.contains c = false) :
    rtrimstring bytes ws = bytes := Strip.rdropWhile_of_last last

/-- A value is read back as one line, however it has been cut. -/
theorem parseLoop_broken {value printed : Bytes} (broken : Broken value printed) {first : UInt8}
    {start q : Bytes} (flags : s.conf.flags = {}) (before : s.pending ++ q = start)
    (begins : start.head? = some first) (no_blank : blanks.contains first = false)
    (no_comment : first ≠ byte '#') (one_line : byte '\n' ∉ q ++ value)
    (ends : ∀ c, (q ++ value).getLast? = some c → lineEnds.contains c = false)
    (complete : (trimstring (start ++ value) blanks).getLast? ≠ some (byte '\\'))
    (more : Bytes) :
    parseLoop path_tildexpand (q ++ printed ++ byte '\n' :: more) s =
      parseLoop path_tildexpand more
        ({ s with line := trimstring (start ++ value) blanks, appending := false }.takeLine
          path_tildexpand false).1 := by
  induction broken generalizing s q start with
  | whole value =>
      have head_all : (start ++ value).head? = some first := by rw [List.head?_append, begins]; rfl
      have starts : ∀ c, (start ++ value).head? = some c → blanks.contains c = false := by
        intro c found
        cases head_all.symm.trans found
        exact no_blank
      have filled : trimstring (start ++ value) blanks ≠ [] := by
        intro empty
        rw [Strip.eq_nil_of_strip starts empty] at head_all
        cases head_all
      have head : (trimstring (start ++ value) blanks).head? = some first :=
        (Strip.head_strip starts filled).trans head_all
      rw [parseLoop_line one_line, ParseState.next_complete _ filled _ complete]
      · rw [ParseState.joined_of_flags flags, rtrimstring_of_last ends, ← List.append_assoc, before]
      · rw [head]
        exact fun same => no_comment (Option.some.inj same)
  | cut front filled rest ih =>
      rename_i back printed
      have chunk_line : byte '\n' ∉ q ++ front ++ [byte '\\'] := by
        simp only [List.mem_append, List.mem_singleton, not_or] at one_line ⊢
        exact ⟨⟨one_line.1, one_line.2.1⟩, by decide⟩
      have head_chunk : (start ++ front ++ [byte '\\']).head? = some first := by
        rw [List.head?_append, List.head?_append, begins]
        rfl
      have joined : s.joined (q ++ front ++ [byte '\\']) = start ++ front ++ [byte '\\'] := by
        rw [ParseState.joined_of_flags flags, rtrimstring_of_last, ← List.append_assoc,
          ← List.append_assoc, before]
        · apply Strip.strip_of_stripped
          constructor
          · intro c found
            cases head_chunk.symm.trans found
            exact no_blank
          · intro c found
            rw [List.getLast?_concat] at found
            cases found
            decide
        · intro c found
          rw [List.getLast?_concat] at found
          cases found
          decide
      have turn : (s.next path_tildexpand (q ++ front ++ [byte '\\']) false).1 =
          { s with line := start ++ front, appending := true } := by
        unfold ParseState.next
        dsimp only
        rw [joined, head_chunk, if_neg (not_or_intro (by simp) (by simpa using no_comment)),
          if_pos List.getLast?_concat, List.dropLast_concat]
      have pending : ({ s with line := start ++ front, appending := true } :
          ParseState).pending ++ [] = start ++ front := List.append_nil _
      have cut : q ++ (front ++ byte '\\' :: byte '\n' :: printed) ++ byte '\n' :: more =
          q ++ front ++ [byte '\\'] ++ byte '\n' :: ([] ++ printed ++ byte '\n' :: more) := by simp
      rw [← List.append_assoc start] at complete ⊢
      rw [cut, parseLoop_line chunk_line, turn]
      refine ih (by exact flags) pending ?_ ?_ ?_ complete
      · rw [List.head?_append, begins]
        rfl
      · intro member
        exact one_line (List.mem_append_right _ (List.mem_append_right _ member))
      · intro c found
        apply ends c
        rw [← List.append_assoc, List.getLast?_append_of_ne_nil _ filled]
        exact found

/-- The state between two lines of the file. -/
structure Ready (s : ParseState) (submapkey : Bytes) (find : Bytes → Bytes → Option Bytes) :
    Prop where
  parsing : Parsing s
  complete : s.appending = false
  submapkey : s.submapkey = submapkey
  find : ∀ nm sk, s.conf.find nm sk = find nm sk

variable {submapkey : Bytes} {find : Bytes → Bytes → Option Bytes}

theorem Ready.pending (ready : Ready s submapkey find) : s.pending = [] := by
  unfold ParseState.pending
  rw [ready.complete]
  rfl

theorem Ready.next (ready : Ready s submapkey find) (one_line : byte '\n' ∉ cline)
    {submapkey' : Bytes} {find' : Bytes → Bytes → Option Bytes}
    (complete : (s.next path_tildexpand cline false).1.appending = false)
    (same : (s.next path_tildexpand cline false).1.submapkey = submapkey')
    (found : ∀ nm sk, (s.next path_tildexpand cline false).1.conf.find nm sk = find' nm sk) :
    Ready (s.next path_tildexpand cline false).1 submapkey' find' where
  parsing := ready.parsing.next one_line rfl
  complete := complete
  submapkey := same
  find := found

/-- A comment is read back as one. -/
theorem Ready.read_comment (ready : Ready s submapkey find) {data : Bytes} (comment : Comment data)
    (clean : ¬ Continues data) :
    Ready (s.next path_tildexpand data false).1 submapkey find := by
  have joined : s.joined data = trimstring (rtrimstring data lineEnds) blanks := by
    rw [ParseState.joined_of_flags ready.parsing.sound.flags, ready.pending, List.nil_append]
  by_cases blank : s.joined data = [] ∨ (s.joined data).head? = some (byte '#')
  · have turn : (s.next path_tildexpand data false).1 =
        { s with line := s.joined data }.push (commentLine (s.joined data)) := by
      unfold ParseState.next
      dsimp only
      rw [if_pos blank]
      rfl
    apply ready.next comment.one_line
    · rw [turn]; exact ready.complete
    · rw [turn]; exact ready.submapkey
    · rw [turn]; exact ready.find
  · rw [not_or] at blank
    have some_left : rtrimstring data lineEnds ≠ [] := by
      intro empty
      rw [joined, empty] at blank
      exact blank.1 rfl
    have head : (s.joined data).head? = data.head? := by
      have kept : (rtrimstring data lineEnds).head? = data.head? := Strip.head_rdropWhile some_left
      rw [joined] at blank ⊢
      rw [← kept]
      exact Strip.head_strip (fun c found => comment.stripped.first c (kept ▸ found)) blank.1
    have inside (c : UInt8) (member : c ∈ s.joined data) : c ∈ data := by
      rw [joined] at member
      exact (List.rdropWhile_prefix _ data).subset ((Strip.strip_sublist _ _).subset member)
    obtain ⟨no_section, nothing⟩ : data.head? ≠ some (byte '[') ∧
        (byte '=' ∉ data ∨ data.head? = some (byte '=')) := by
      rcases comment.nothing with rfl | sharp | nothing
      · exact absurd rfl some_left
      · exact absurd (head.trans sharp) blank.2
      · exact nothing
    have turn : (s.next path_tildexpand data false).1 =
        ({ s with line := s.joined data, appending := false } : ParseState).push
          { kind := .comment, data := s.joined data } := by
      rw [ParseState.next_complete rfl blank.1 blank.2]
      · unfold ParseState.takeLine
        dsimp only
        rw [head, if_neg no_section]
        rcases nothing with absent | equal
        · rw [Lines.cut_of_not_mem fun member => absent (inside _ member)]
        · obtain ⟨rest, whole⟩ := List.head?_eq_some_iff.mp (head.trans equal)
          rw [whole]
          rfl
      · intro last
        exact clean ⟨joined ▸ blank.2, joined ▸ last⟩
    apply ready.next comment.one_line
    · rw [turn]; rfl
    · rw [turn]; exact ready.submapkey
    · rw [turn]; exact ready.find

/-- A section line opens its section. -/
theorem Ready.read_section (ready : Ready s submapkey find) {sk : Bytes} (opened : Section sk) :
    Ready (s.next path_tildexpand (byte '[' :: sk ++ [byte ']']) false).1 sk find := by
  have one_line : byte '\n' ∉ byte '[' :: sk ++ [byte ']'] := by
    simp only [List.cons_append, List.mem_cons, List.mem_append, List.not_mem_nil, or_false, not_or]
    exact ⟨by decide, opened.one_line, by decide⟩
  have last : (byte '[' :: sk ++ [byte ']']).getLast? = some (byte ']') := List.getLast?_concat
  have joined : s.joined (byte '[' :: sk ++ [byte ']']) = byte '[' :: sk ++ [byte ']'] := by
    rw [ParseState.joined_of_flags ready.parsing.sound.flags, ready.pending, List.nil_append,
      rtrimstring_of_last]
    · apply Strip.strip_of_stripped
      constructor
      · intro c found
        cases found
        decide
      · intro c found
        cases last.symm.trans found
        decide
    · intro c found
      cases last.symm.trans found
      decide
  have inside : trimstring (byte '[' :: sk ++ [byte ']']) brackets = sk := by
    unfold trimstring
    rw [Strip.strip_concat (by decide), Strip.strip_cons (by decide),
      Strip.strip_of_stripped opened.stripped]
  have turn : (s.next path_tildexpand (byte '[' :: sk ++ [byte ']']) false).1 =
      ({ s with line := sk, submapkey := sk, appending := false } : ParseState).push
        { kind := .sk, data := sk } := by
    rw [ParseState.next_complete joined (by simp) (by simpa using by decide)
      (by rw [last]; decide)]
    unfold ParseState.takeLine
    dsimp only
    rw [if_pos (by rfl), inside, ready.parsing.sound.flags]
    rfl
  apply ready.next one_line
  · rw [turn]; rfl
  · rw [turn]; rfl
  · rw [turn]; exact ready.find

theorem iSet_parsing (conf : ConfSimple) {value : Bytes}
    (one_line : value.any lineEnds.contains = false) (nm sk : Bytes) :
    ∃ after, conf.iSet nm value sk true = .done after := by
  unfold ConfSimple.iSet
  rw [if_neg (by simp [one_line])]
  split
  · split <;> exact ⟨_, rfl⟩
  · split <;> exact ⟨_, rfl⟩

/-- The line of a variable, without the blanks at its ends. -/
theorem trimmed_variable {nm value : Bytes} (name : Name nm) (fits : Value value) :
    ∃ behind, trimstring (nm ++ [byte ' ', byte '=', byte ' '] ++ value) blanks =
        nm ++ [byte ' '] ++ byte '=' :: behind ∧ trimstring behind blanks = value ∧
      (nm ++ [byte ' '] ++ byte '=' :: behind).getLast? ≠ some (byte '\\') := by
  have starts (behind : Bytes) :
      ∀ c, (nm ++ behind).head? = some c → blanks.contains c = false := by
    intro c found
    rw [List.head?_append_of_ne_nil _ name.filled] at found
    exact name.stripped.first c found
  by_cases empty : value = []
  · subst empty
    have shape : nm ++ [byte ' ', byte '=', byte ' '] ++ [] =
        nm ++ [byte ' ', byte '='] ++ [byte ' '] := by simp
    refine ⟨[], ?_, rfl, by simpa using by decide⟩
    rw [shape, trimstring, Strip.strip_concat (by decide), Strip.strip_of_stripped]
    · simp
    · refine ⟨starts _, ?_⟩
      intro c found
      have last : (nm ++ [byte ' ', byte '=']).getLast? = some (byte '=') := by simp
      cases last.symm.trans found
      decide
  · have last : (nm ++ [byte ' '] ++ byte '=' :: byte ' ' :: value).getLast? = value.getLast? := by
      have whole : nm ++ [byte ' '] ++ byte '=' :: byte ' ' :: value =
          nm ++ [byte ' ', byte '=', byte ' '] ++ value := by simp
      rw [whole, List.getLast?_append_of_ne_nil _ empty]
    refine ⟨byte ' ' :: value, ?_, ?_, last ▸ fits.no_continuation⟩
    · have shape : nm ++ [byte ' ', byte '=', byte ' '] ++ value =
          nm ++ [byte ' '] ++ byte '=' :: byte ' ' :: value := by simp
      rw [shape]
      refine Strip.strip_of_stripped ⟨?_, fun c found => fits.stripped.last c (last ▸ found)⟩
      rw [List.append_assoc]
      exact starts _
    · rw [trimstring, Strip.strip_cons (by decide), Strip.strip_of_stripped fits.stripped]

theorem ParseState.takeLine_variable {nm behind value : Bytes} (flags : s.conf.flags = {})
    (line : s.line = nm ++ [byte ' '] ++ byte '=' :: behind) (name : Name nm)
    (trimmed : trimstring behind blanks = value) :
    (s.takeLine path_tildexpand false).1 = s.iSet nm value := by
  have no_section : s.line.head? ≠ some (byte '[') := by
    rw [line, List.append_assoc, List.head?_append_of_ne_nil _ name.filled]
    exact name.no_section
  have no_equal : byte '=' ∉ nm ++ [byte ' '] := by
    rw [List.mem_append, List.mem_singleton, not_or]
    exact ⟨name.no_equal, by decide⟩
  have named : trimstring (nm ++ [byte ' ']) blanks = nm := by
    rw [trimstring, Strip.strip_concat (by decide), Strip.strip_of_stripped name.stripped]
  unfold ParseState.takeLine
  rw [if_neg no_section, line, Lines.cut_append no_equal, flags]
  dsimp only
  rw [named, if_neg name.filled, if_pos rfl, trimmed]

theorem Ready.iSet (ready : Ready s submapkey find) {nm value : Bytes} (name : Name nm)
    (fits : Value value) :
    Ready (s.iSet nm value) submapkey fun nm' sk' =>
      if nm' = nm ∧ sk' = submapkey then some value else find nm' sk' := by
  have parsing := ready.parsing.iSet name fun _ => fits
  obtain ⟨conf, done⟩ := iSet_parsing s.conf fits.one_line nm s.submapkey
  have result : s.iSet nm value = { s with conf } := by
    unfold ParseState.iSet
    rw [done]
  rw [result] at parsing ⊢
  refine ⟨parsing, ready.complete, ready.submapkey, ?_⟩
  intro nm' sk'
  have set := ConfSimple.iSet_done ready.parsing.sound.flags (fun _ => ready.parsing.current) done
  rw [← ready.find, ← ready.submapkey]
  exact set.find nm' sk'

/-- The lines of a variable assign it. -/
theorem Ready.read_variable (ready : Ready s submapkey find) {nm value : Bytes} (name : Name nm)
    (fits : Value value) (more : Bytes) :
    ∃ after, parseLoop path_tildexpand (varprinter nm value ++ more) s =
        parseLoop path_tildexpand more after ∧
      Ready after submapkey fun nm' sk' =>
        if nm' = nm ∧ sk' = submapkey then some value else find nm' sk' := by
  obtain ⟨printed, broken, printed_eq⟩ := varprinter_broken name.filled value
  obtain ⟨behind, trimmed, value_eq, complete⟩ := trimmed_variable name fits
  obtain ⟨first, later, rfl⟩ := List.exists_cons_of_ne_nil name.filled
  have flags := ready.parsing.sound.flags
  have no_ends (c : UInt8) (member : c ∈ value) : lineEnds.contains c = false := by
    have none := fits.one_line
    rw [List.any_eq_false] at none
    simpa using none c member
  have one_line : byte '\n' ∉ first :: later ++ [byte ' ', byte '=', byte ' '] ++ value := by
    intro member
    rcases List.mem_append.mp member with named | valued
    · rcases List.mem_append.mp named with named | sign
      · exact name.one_line named
      · exact absurd sign (by decide)
    · exact absurd (no_ends _ valued) (by decide)
  have ends : ∀ c, (first :: later ++ [byte ' ', byte '=', byte ' '] ++ value).getLast? = some c →
      lineEnds.contains c = false := by
    intro c found
    by_cases empty : value = []
    · subst empty
      rw [List.append_nil, List.getLast?_append_of_ne_nil _ (by simp)] at found
      cases found
      decide
    · rw [List.getLast?_append_of_ne_nil _ empty] at found
      exact no_ends c (List.mem_of_getLast? found)
  have text : varprinter (first :: later) value ++ more =
      first :: later ++ [byte ' ', byte '=', byte ' '] ++ printed ++ byte '\n' :: more := by
    rw [printed_eq, List.append_assoc _ [byte '\n']]
    rfl
  rw [text]
  refine ⟨_, parseLoop_broken broken flags (by rw [ready.pending, List.nil_append]) rfl
    (name.stripped.first first rfl) (fun same => name.no_comment (congrArg some same)) one_line
    ends (trimmed ▸ complete) more, ?_⟩
  have joined : Ready { s with
      line := trimstring (first :: later ++ [byte ' ', byte '=', byte ' '] ++ value) blanks
      appending := false } submapkey find :=
    ⟨⟨ready.parsing.sound, ready.parsing.opened, ready.parsing.current, List.not_mem_nil⟩, rfl,
      ready.submapkey, ready.find⟩
  have assigned := joined.iSet name fits
  rw [← ParseState.takeLine_variable (by exact flags) trimmed name value_eq] at assigned
  exact assigned

theorem Ready.congr (ready : Ready s submapkey find) {find' : Bytes → Bytes → Option Bytes}
    (same : ∀ nm sk, find nm sk = find' nm sk) : Ready s submapkey find' where
  parsing := ready.parsing
  complete := ready.complete
  submapkey := ready.submapkey
  find nm sk := (ready.find nm sk).trans (same nm sk)

/-- What can be found once the variables which have a line have been assigned. -/
def ConfSimple.overlay (conf : ConfSimple) (order : List ConfLine) (sk : Bytes)
    (find : Bytes → Bytes → Option Bytes) (nm sk' : Bytes) : Option Bytes :=
  if (sk', nm) ∈ assigned sk order then (conf.find nm sk').or (find nm sk') else find nm sk'

theorem ConfSimple.overlay_of_not_var (conf : ConfSimple) {line : ConfLine} (kind : line.kind ≠ .var)
    (order : List ConfLine) (sk : Bytes) (find : Bytes → Bytes → Option Bytes) :
    conf.overlay (line :: order) sk find = conf.overlay order (line.sectionBehind sk) find := by
  unfold ConfSimple.overlay
  rw [assigned, if_neg kind, List.nil_append]

/-- A variable is assigned before those of the lines which follow. -/
theorem ConfSimple.overlay_of_var (conf : ConfSimple) {line : ConfLine} (kind : line.kind = .var)
    (order : List ConfLine) (sk : Bytes) (find : Bytes → Bytes → Option Bytes) (nm sk' : Bytes) :
    conf.overlay (line :: order) sk find nm sk' =
      conf.overlay order sk (fun nm' sk' => if nm' = line.data ∧ sk' = sk then
        (conf.find nm' sk').or (find nm' sk') else find nm' sk') nm sk' := by
  have split : assigned sk (line :: order) = (sk, line.data) :: assigned sk order := by
    simp [assigned, kind, ConfLine.sectionBehind]
  unfold ConfSimple.overlay
  simp only [split, List.mem_cons, Prod.mk.injEq]
  by_cases here : nm = line.data ∧ sk' = sk
  · rw [if_pos here, if_pos (.inl here.symm)]
    cases conf.find nm sk' <;> simp
  · rw [if_neg here]
    have other : ¬ (sk' = sk ∧ nm = line.data) := fun both => here both.symm
    simp only [other, false_or]

/-- Reading the lines of a configuration back assigns each variable which has a line. -/
theorem parseLoop_writeLines {conf : ConfSimple} (ok : conf.status ≠ .error) (sound : Sound conf)
    {order : List ConfLine} (lines : ∀ line ∈ order, line.Fits)
    (clean : ∀ line ∈ order, line.kind = .comment ∨ line.kind = .varcomment →
      ¬ Continues line.data)
    {sk : Bytes} (ready : Ready s submapkey find)
    (opened : (VarMap.find conf.submaps sk).isSome → submapkey = sk) :
    ∃ after submapkey', parseLoop path_tildexpand (conf.writeLines sk order) s =
        parseLoop path_tildexpand [] after ∧
      Ready after submapkey' (conf.overlay order sk find) := by
  induction order generalizing s sk submapkey find with
  | nil =>
      refine ⟨s, submapkey, rfl, ready.congr fun nm sk' => ?_⟩
      simp [ConfSimple.overlay, assigned]
  | cons line order ih =>
      rw [List.forall_mem_cons] at lines clean
      have comment (kind : line.kind = .comment ∨ line.kind = .varcomment)
          (fits : Comment line.data) :
          ∃ after submapkey', parseLoop path_tildexpand
              (line.data ++ [byte '\n'] ++ conf.writeLines sk order) s =
            parseLoop path_tildexpand [] after ∧
          Ready after submapkey' (conf.overlay order sk find) := by
        rw [List.append_assoc, List.singleton_append, parseLoop_line fits.one_line]
        exact ih lines.2 clean.2 (ready.read_comment fits (clean.1 kind)) opened
      have fits := lines.1
      unfold ConfLine.Fits at fits
      cases kind : line.kind with
      | comment =>
          rw [kind] at fits
          simpa [ConfSimple.writeLines, conf.overlay_of_not_var, ConfLine.sectionBehind, kind] using
            comment (.inl kind) fits
      | varcomment =>
          rw [kind] at fits
          simpa [ConfSimple.writeLines, conf.overlay_of_not_var, ConfLine.sectionBehind, kind] using
            comment (.inr kind) fits
      | sk =>
          rw [kind] at fits
          have one_line : byte '\n' ∉ byte '[' :: line.data ++ [byte ']'] := by
            simp only [List.cons_append, List.mem_cons, List.mem_append, List.not_mem_nil, or_false,
              not_or]
            exact ⟨by decide, fits.one_line, by decide⟩
          rw [conf.overlay_of_not_var (by simp [kind]), ConfLine.sectionBehind, if_pos kind]
          unfold ConfSimple.writeLines
          rw [kind]
          dsimp only
          rw [conf.subkey_of_flags sound.flags]
          split
          · have text : byte '[' :: line.data ++ [byte ']', byte '\n'] ++
                conf.writeLines line.data order =
                byte '[' :: line.data ++ [byte ']'] ++ byte '\n' ::
                  conf.writeLines line.data order := by simp
            rw [text, parseLoop_line one_line]
            exact ih lines.2 clean.2 (ready.read_section fits) fun _ => rfl
          · rename_i absent
            exact ih lines.2 clean.2 ready fun found => absurd found absent
      | var =>
          rw [kind] at fits
          unfold ConfSimple.writeLines
          rw [kind]
          dsimp only
          rw [ConfSimple.get, if_neg ok]
          cases found : conf.find line.data sk with
          | none =>
              obtain ⟨after, submapkey', same, read⟩ := ih lines.2 clean.2 ready opened
              refine ⟨after, submapkey', same, read.congr fun nm sk' => ?_⟩
              rw [conf.overlay_of_var kind]
              congr 1
              funext nm' sk''
              by_cases here : nm' = line.data ∧ sk'' = sk
              · rw [if_pos here, here.1, here.2, found, Option.none_or]
              · rw [if_neg here]
          | some value =>
              have inside : submapkey = sk := by
                apply opened
                rw [conf.find_of_flags sound.flags] at found
                obtain ⟨submap, there, _⟩ := Option.bind_eq_some_iff.mp found
                rw [there]
                rfl
              obtain ⟨middle, same, assigned⟩ := ready.read_variable fits
                (sound.values line.data sk value found).1 (conf.writeLines sk order)
              obtain ⟨after, submapkey', same', read⟩ :=
                ih lines.2 clean.2 assigned fun _ => inside
              refine ⟨after, submapkey', same.trans same', read.congr fun nm sk' => ?_⟩
              rw [conf.overlay_of_var kind, inside]
              congr 1
              funext nm' sk''
              by_cases here : nm' = line.data ∧ sk'' = sk
              · rw [if_pos here, if_pos here, here.1, here.2, found, Option.some_or]
              · rw [if_neg here, if_neg here]

/-- There is nothing behind the last line. -/
theorem Ready.parseLoop_nil (ready : Ready s submapkey find) :
    (parseLoop path_tildexpand [] s).conf = s.conf := by
  have joined : s.joined [] = [] := by
    rw [ParseState.joined_of_flags ready.parsing.sound.flags, ready.pending]
    rfl
  have turn : s.next path_tildexpand [] true = ({ s with line := [] }, true) := by
    unfold ParseState.next
    dsimp only
    rw [joined, if_pos (.inl rfl), if_pos rfl]
  rw [parseLoop_last (Lines.cut_of_not_mem List.not_mem_nil) turn]

end

/-- Writing a configuration and reading the file back gives its variables again. -/
theorem find_ofFile_writeLines (path_tildexpand : Bytes → Bytes) (status : StatusCode)
    {conf : ConfSimple} (ok : conf.status ≠ .error) (sound : Sound conf) (clean : Clean conf)
    (nm sk : Bytes) :
    (ConfSimple.ofFile path_tildexpand {} status (conf.writeLines [] conf.order)).find nm sk =
      conf.find nm sk := by
  have start : Ready { conf := { flags := {}, status } } [] fun _ _ => none :=
    ⟨⟨sound_empty status, section_nil, rfl, List.not_mem_nil⟩, rfl, rfl, fun _ _ => rfl⟩
  obtain ⟨after, submapkey, same, ready⟩ :=
    parseLoop_writeLines ok sound sound.lines clean start fun _ => rfl
  unfold ConfSimple.ofFile parseinput
  rw [same, ready.parseLoop_nil, ready.find]
  unfold ConfSimple.overlay
  rw [Option.or_none]
  split
  · rfl
  · rename_i absent
    cases found : conf.find nm sk with
    | none => rfl
    | some value => exact absurd (sound.covered nm sk value found) absent

/-- A name which can be given to a variable. -/
structure Identifier (nm : Bytes) : Prop where
  filled : nm ≠ []
  plain : ∀ c ∈ nm, c ∉ bytes "= \t\n\r#[" ∧ c ≠ 11 ∧ c ≠ 12

theorem Identifier.name {nm : Bytes} (identifier : Identifier nm) : Name nm := by
  have other {c d : UInt8} (member : c ∈ nm) (special : d ∈ bytes "= \t\n\r#[") :
      c ≠ d := fun same => (identifier.plain c member).1 (same ▸ special)
  have blank (c : UInt8) (member : c ∈ nm) : blanks.contains c = false := by
    have none : c ∉ blanks := by
      rw [blanks, List.mem_cons, List.mem_singleton, not_or]
      exact ⟨other member (by decide), other member (by decide)⟩
    simpa using none
  constructor
  · exact identifier.filled
  · exact ⟨fun c found => blank c (List.mem_of_head? found),
      fun c found => blank c (List.mem_of_getLast? found)⟩
  · exact fun member => other member (by decide) rfl
  · exact fun member => other member (by decide) rfl
  · exact fun head => other (List.mem_of_head? head) (by decide) rfl
  · exact fun head => other (List.mem_of_head? head) (by decide) rfl

/-- The file gives the variable its new value, and all the others the ones they had. -/
def RoundTrips (path_tildexpand : Bytes → Bytes) (status : StatusCode) (conf : ConfSimple)
    (file nm value sk : Bytes) : Prop :=
  let reread := ConfSimple.ofFile path_tildexpand {} status file
  reread.get nm sk = some value ∧
    ∀ nm' sk', (nm', sk') ≠ (nm, sk) → reread.get nm' sk' = conf.get nm' sk'

/-- A `set` which succeeds and writes the file. -/
theorem ConfSimple.set_success {conf after : ConfSimple} {env : WriteEnv} {nm value sk : Bytes}
    {file : Bytes} (success : conf.set env nm value sk = .success after (.file file)) :
    conf.status = .rw ∧ conf.iSet nm value sk false = .done after ∧
      file = after.writeLines [] after.order := by
  unfold ConfSimple.set at success
  split at success
  · cases success
  · rename_i writable
    split at success
    · cases success
    · cases success
    · rename_i set done
      cases written : set.write env with
      | failed =>
          rw [written] at success
          cases success
      | nowhere =>
          rw [written] at success
          cases success
      | file content =>
          rw [written] at success
          cases success
          refine ⟨not_not.mp writable, done, ?_⟩
          unfold ConfSimple.write at written
          split at written
          · cases written
          · split at written
            · cases written
            · split at written
              · split at written <;> cases written
                rfl
              · cases written

/-- The comments stay as they are. -/
theorem Assigned.clean {conf after : ConfSimple} {nm value sk : Bytes}
    (assigned : Assigned conf after nm value sk) (clean : Clean conf) : Clean after := by
  intro line member comment
  rcases assigned.order with ⟨_, same⟩ | ⟨middle, middle_eq, placed⟩
  · exact clean line (same ▸ member) comment
  · rcases placed.lines line member with old | rfl
    · rcases middle_eq with rfl | rfl
      · exact clean line old comment
      · rcases List.mem_append.mp old with older | new
        · exact clean line older comment
        · rw [List.mem_singleton.mp new] at comment
          simp at comment
    · simp at comment

section

variable (path_tildexpand : Bytes → Bytes) (status reading : StatusCode) (env : WriteEnv)
  (content nm value sk : Bytes) {after : ConfSimple} {file : Bytes}

/-- Setting a variable and reading the written file back. The value comes back only if it has
no blanks at its ends and does not end in a backslash, and if the name of the section has
neither blanks nor brackets at its ends and is on one line. This is enough, and all the other
variables come back too, if no comment of the file would be read back as a continued line. -/
theorem set_roundTrips (readable : reading ≠ .error) (identifier : Identifier nm)
    (success : (ConfSimple.ofFile path_tildexpand {} status content).set env nm value sk =
      .success after (.file file)) :
    let conf := ConfSimple.ofFile path_tildexpand {} status content
    (RoundTrips path_tildexpand reading conf file nm value sk → Section sk ∧ Value value) ∧
      (Clean conf ∧ Section sk ∧ Value value →
        RoundTrips path_tildexpand reading conf file nm value sk) := by
  obtain ⟨writable, done, rfl⟩ := ConfSimple.set_success success
  have sound := sound_ofFile path_tildexpand status content
  have assigned := ConfSimple.iSet_done sound.flags (fun init => by cases init) done
  intro conf
  constructor
  · rintro ⟨found, -⟩
    rw [ConfSimple.get, if_neg (by rw [ofFile_status]; exact readable)] at found
    exact ((sound_ofFile path_tildexpand reading _).values nm sk value found).symm
  · rintro ⟨clean, opened, fits⟩
    have ok : after.status ≠ .error := by
      rw [ConfSimple.iSet_status done, writable]
      decide
    have reread := find_ofFile_writeLines path_tildexpand reading ok
      (sound.assign assigned identifier.name fits opened) (assigned.clean clean)
    constructor
    · rw [ConfSimple.get, if_neg (by rw [ofFile_status]; exact readable), reread, assigned.find,
        if_pos ⟨rfl, rfl⟩]
    · intro nm' sk' other
      rw [ConfSimple.get, if_neg (by rw [ofFile_status]; exact readable), reread, assigned.find,
        if_neg fun same => other (Prod.ext same.1 same.2), ConfSimple.get,
        if_neg (by rw [writable]; decide)]

end

/-- A value which is printed on two lines. -/
def longValue : Bytes :=
  List.replicate 60 (byte 'u') ++ byte ' ' :: List.replicate 20 (byte 'v')

theorem longValue_fits : Value longValue := by
  have first : longValue.head? = some (byte 'u') := by decide
  have last : longValue.getLast? = some (byte 'v') := by decide
  refine ⟨⟨?_, ?_⟩, by decide, by decide⟩
  · intro c found
    cases first.symm.trans found
    decide
  · intro c found
    cases last.symm.trans found
    decide

theorem set_roundTrips_longValue :
    ∃ after file, (ConfSimple.ofFile id {} .rw (bytes "# top\n[s]\nb = 2\n")).set {}
        (bytes "uri") longValue (bytes "s") = .success after (.file file) ∧
      RoundTrips id .ro (ConfSimple.ofFile id {} .rw (bytes "# top\n[s]\nb = 2\n")) file
        (bytes "uri") longValue (bytes "s") := by
  have success : (ConfSimple.ofFile id {} .rw (bytes "# top\n[s]\nb = 2\n")).set {}
      (bytes "uri") longValue (bytes "s") = .success {
        submaps := [(bytes "s", [(bytes "uri", longValue), (bytes "b", bytes "2")])]
        order := [{ kind := .comment, data := bytes "# top" },
          { kind := .sk, data := bytes "s" }, { kind := .var, data := bytes "b" },
          { kind := .var, data := bytes "uri" }] }
      (.file (bytes "# top\n[s]\nb = 2\nuri = " ++ List.replicate 60 (byte 'u') ++
        bytes " \\\n" ++ List.replicate 20 (byte 'v') ++ bytes "\n")) := by decide +kernel
  have opened : Section (bytes "s") := by
    refine ⟨⟨?_, ?_⟩, by decide⟩
    · intro c found
      cases found
      decide
    · intro c found
      cases found
      decide
  refine ⟨_, _, success, (set_roundTrips id .rw .ro {} _ _ _ _ (by decide)
    ⟨by decide, by decide +kernel⟩ success).2 ⟨?_, opened, longValue_fits⟩⟩
  unfold Clean
  decide +kernel

/-- A value which ends in a backslash loses it, and takes the next variable along. -/
theorem set_trailing_backslash_lost :
    ¬ ∀ (path_tildexpand : Bytes → Bytes) (status reading : StatusCode) (env : WriteEnv)
      (content nm value sk : Bytes) (after : ConfSimple) (file : Bytes), reading ≠ .error →
      Identifier nm →
      (ConfSimple.ofFile path_tildexpand {} status content).set env nm value sk =
        .success after (.file file) →
      RoundTrips path_tildexpand reading (ConfSimple.ofFile path_tildexpand {} status content)
        file nm value sk := by
  intro claim
  have success : (ConfSimple.ofFile id {} .rw (bytes "a = 1\nb = 2\n")).set {} (bytes "a")
      (bytes "x\\") [] = .success {
        submaps := [([], [(bytes "a", bytes "x\\"), (bytes "b", bytes "2")])]
        order := [{ kind := .var, data := bytes "a" }, { kind := .var, data := bytes "b" }] }
      (.file (bytes "a = x\\\nb = 2\n")) := by decide +kernel
  have back := claim id .rw .ro {} _ _ _ _ _ _ (by decide) ⟨by decide, by decide +kernel⟩ success
  have before : (ConfSimple.ofFile id {} .rw (bytes "a = 1\nb = 2\n")).get (bytes "b") [] =
      some (bytes "2") := by decide +kernel
  have lost : (ConfSimple.ofFile id {} .ro (bytes "a = x\\\nb = 2\n")).get (bytes "b") [] =
      none := by decide +kernel
  have kept := back.2 (bytes "b") [] (by decide)
  rw [lost, before] at kept
  cases kept

end Upmpdcli.Conftree
