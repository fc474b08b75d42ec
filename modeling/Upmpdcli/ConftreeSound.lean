import Upmpdcli.ConftreeOrder

set_option autoImplicit false

/- What the parser lets into a configuration, whatever the file contains. -/
namespace Upmpdcli.Conftree

open Strip (Stripped)

/-- The name of a variable as the parser makes one. -/
structure Name (nm : Bytes) : Prop where
  filled : nm ≠ []
  stripped : Stripped blanks.contains nm
  no_equal : byte '=' ∉ nm
  one_line : byte '\n' ∉ nm
  no_comment : nm.head? ≠ some (byte '#')
  no_section : nm.head? ≠ some (byte '[')

/-- The name of a section which is read back from its line. -/
structure Section (sk : Bytes) : Prop where
  stripped : Stripped brackets.contains sk
  one_line : byte '\n' ∉ sk

/-- A value which is read back from its lines. -/
structure Value (value : Bytes) : Prop where
  stripped : Stripped blanks.contains value
  one_line : value.any lineEnds.contains = false
  no_continuation : value.getLast? ≠ some (byte '\\')

/-- A line which assigns nothing. -/
structure Comment (data : Bytes) : Prop where
  stripped : Stripped blanks.contains data
  one_line : byte '\n' ∉ data
  nothing : data = [] ∨ data.head? = some (byte '#') ∨
    data.head? ≠ some (byte '[') ∧ (byte '=' ∉ data ∨ data.head? = some (byte '='))

def ConfLine.Fits (line : ConfLine) : Prop :=
  match line.kind with
  | .comment | .varcomment => Comment line.data
  | .sk => Section line.data
  | .var => Name line.data

/-- The invariant of a configuration: its lines and values fit the format, and each variable
has a line in its section. -/
structure Sound (conf : ConfSimple) : Prop where
  flags : conf.flags = {}
  lines : ∀ line ∈ conf.order, line.Fits
  values : ∀ nm sk value, conf.find nm sk = some value → Value value ∧ Section sk
  covered : ∀ nm sk value, conf.find nm sk = some value → (sk, nm) ∈ assigned [] conf.order

theorem section_nil : Section [] where
  stripped := Strip.stripped_nil
  one_line := List.not_mem_nil

theorem Sound.push {conf : ConfSimple} (sound : Sound conf) {line : ConfLine}
    (fits : line.Fits) : Sound (conf.push line) where
  flags := sound.flags
  lines := by
    intro other member
    rcases List.mem_append.mp member with old | new
    · exact sound.lines other old
    · rw [List.mem_singleton.mp new]
      exact fits
  values := sound.values
  covered nm sk value found := by
    have here := sound.covered nm sk value found
    unfold ConfSimple.push
    rw [assigned_append]
    exact List.mem_append_left _ here

theorem Sound.assign {conf after : ConfSimple} {nm value sk : Bytes} (sound : Sound conf)
    (done : Assigned conf after nm value sk) (name : Name nm) (fits : Value value)
    (opened : Section sk) : Sound after where
  flags := by
    obtain ⟨submaps, order, rfl⟩ := done.same
    exact sound.flags
  lines := by
    intro line member
    rcases done.order with ⟨_, same⟩ | ⟨middle, middle_eq, placed⟩
    · exact sound.lines line (same ▸ member)
    · rcases placed.lines line member with old | rfl
      · rcases middle_eq with rfl | rfl
        · exact sound.lines line old
        · rcases List.mem_append.mp old with older | new
          · exact sound.lines line older
          · rw [List.mem_singleton.mp new]
            exact opened
      · exact name
  values := by
    intro nm' sk' value' found
    rw [done.find] at found
    split at found
    · rename_i here
      cases found
      exact ⟨fits, here.2 ▸ opened⟩
    · exact sound.values nm' sk' value' found
  covered := by
    intro nm' sk' value' found
    rw [done.find] at found
    rcases done.order with ⟨existing, same⟩ | ⟨middle, middle_eq, placed⟩
    · rw [same]
      split at found
      · rename_i here
        obtain ⟨old, old_found⟩ := Option.isSome_iff_exists.mp existing
        rw [here.1, here.2]
        exact sound.covered nm sk old old_found
      · exact sound.covered nm' sk' value' found
    · split at found
      · rename_i here
        rw [here.1, here.2]
        exact placed.here
      · have old := sound.covered nm' sk' value' found
        apply placed.kept
        rcases middle_eq with rfl | rfl
        · exact old
        · rw [assigned_append]
          exact List.mem_append_left _ old

/-- The invariant of the loop of the parser. -/
structure Parsing (s : ParseState) : Prop where
  sound : Sound s.conf
  opened : Section s.submapkey
  current : sectionAt [] s.conf.order = s.submapkey
  pending : byte '\n' ∉ s.pending

section

variable {path_tildexpand : Bytes → Bytes} {s after : ParseState} {cline : Bytes} {eof : Bool}

theorem Parsing.joined (parsing : Parsing s) (one_line : byte '\n' ∉ cline) :
    Stripped blanks.contains (s.joined cline) ∧ byte '\n' ∉ s.joined cline := by
  constructor
  · unfold ParseState.joined
    rw [parsing.sound.flags]
    exact Strip.strip_stripped _ _
  · intro member
    rcases List.mem_append.mp ((s.joined_sublist cline).subset member) with old | new
    · exact parsing.pending old
    · exact one_line new

/-- A line which is kept as it is leaves the section alone. -/
theorem Parsing.push_comment (parsing : Parsing s) {line : ConfLine} (fits : line.Fits)
    (kind : line.kind ≠ .sk) : Parsing (s.push line) where
  sound := parsing.sound.push fits
  opened := parsing.opened
  current := by
    unfold ParseState.push ConfSimple.push
    rw [sectionAt_append, parsing.current]
    exact sectionAt_of_zone (by simpa using kind) s.submapkey
  pending := parsing.pending

theorem commentLine_fits {data : Bytes} (comment : Comment data) :
    (commentLine data).Fits ∧ (commentLine data).kind ≠ .sk := by
  unfold commentLine
  split
  · exact ⟨comment, by simp⟩
  · exact ⟨comment, by simp⟩

theorem Parsing.iSet (parsing : Parsing s) {nm value : Bytes} (name : Name nm)
    (fits : value.any lineEnds.contains = false → Value value) : Parsing (s.iSet nm value) := by
  unfold ParseState.iSet
  split
  · rename_i conf done
    have set := ConfSimple.iSet_done parsing.sound.flags (fun _ => parsing.current) done
    refine ⟨parsing.sound.assign set name (fits set.one_line) parsing.opened, parsing.opened, ?_,
      parsing.pending⟩
    show sectionAt [] conf.order = s.submapkey
    rcases set.order with ⟨_, same⟩ | ⟨middle, middle_eq, placed⟩
    · rw [same]
      exact parsing.current
    · rw [placed.last]
      rcases middle_eq with rfl | rfl
      · exact parsing.current
      · rw [sectionAt_append]
        rfl
  · exact parsing
  · exact parsing

/-- What stands before the first equal sign of a line. -/
theorem name_of_cut {line before rest : Bytes} (cut : Lines.cut (byte '=') line = (before, some rest))
    (stripped : Stripped blanks.contains line) (one_line : byte '\n' ∉ line)
    (no_comment : line.head? ≠ some (byte '#')) (no_section : line.head? ≠ some (byte '['))
    (filled : trimstring before blanks ≠ []) : Name (trimstring before blanks) := by
  have whole := Lines.eq_of_cut cut
  have starts : before.head? = line.head? := by
    cases before with
    | nil => exact absurd rfl filled
    | cons first later => rw [whole]; rfl
  have inside (c : UInt8) (member : c ∈ trimstring before blanks) : c ∈ before :=
    (Strip.strip_sublist _ _).subset member
  have head : (trimstring before blanks).head? = line.head? :=
    (Strip.head_strip (fun c found => stripped.first c (starts ▸ found)) filled).trans starts
  constructor
  · exact filled
  · exact Strip.strip_stripped _ _
  · exact fun member => Lines.not_mem_of_cut cut (inside _ member)
  · exact fun member => one_line (whole ▸ List.mem_append_left _ (inside _ member))
  · exact head ▸ no_comment
  · exact head ▸ no_section

/-- What stands behind it. -/
theorem value_of_cut {line before rest : Bytes} (cut : Lines.cut (byte '=') line = (before, some rest))
    (stripped : Stripped blanks.contains line) (complete : line.getLast? ≠ some (byte '\\'))
    (one_line : (trimstring rest blanks).any lineEnds.contains = false) :
    Value (trimstring rest blanks) where
  stripped := Strip.strip_stripped _ _
  one_line := one_line
  no_continuation := by
    intro continued
    have filled : trimstring rest blanks ≠ [] := fun empty => by simp [empty] at continued
    have some_rest : rest ≠ [] := by
      rintro rfl
      exact filled rfl
    have ends : line.getLast? = rest.getLast? := by
      rw [Lines.eq_of_cut cut, List.getLast?_append_of_ne_nil _ (by simp),
        List.getLast?_cons_of_ne_nil some_rest]
    have same := Strip.last_strip (fun c found => stripped.last c (ends ▸ found)) filled
    rw [ends, ← same] at complete
    exact complete continued

theorem Parsing.takeLine (parsing : Parsing s) (ready : s.appending = false)
    (stripped : Stripped blanks.contains s.line) (one_line : byte '\n' ∉ s.line)
    (no_comment : s.line.head? ≠ some (byte '#')) (complete : s.line.getLast? ≠ some (byte '\\')) :
    Parsing (s.takeLine path_tildexpand eof).1 := by
  unfold ParseState.takeLine
  rw [parsing.sound.flags]
  split
  · have opened : Section (trimstring s.line brackets) :=
      ⟨Strip.strip_stripped _ _, fun member => one_line ((Strip.strip_sublist _ _).subset member)⟩
    refine ⟨parsing.sound.push opened, opened, ?_, ?_⟩
    · show sectionAt [] (_ ++ _) = _
      rw [sectionAt_append]
      rfl
    · simp [ParseState.pending, ParseState.push, ready]
  · rename_i no_section
    split
    · rename_i cut
      have absent := Lines.not_mem_of_cut cut
      rw [Lines.eq_of_cut_none cut] at absent
      exact parsing.push_comment ⟨stripped, one_line, .inr (.inr ⟨no_section, .inl absent⟩)⟩
        (by simp)
    · rename_i before rest cut
      dsimp only
      split
      · rename_i empty
        refine parsing.push_comment ⟨stripped, one_line, .inr (.inr ⟨no_section, .inr ?_⟩)⟩
          (by simp)
        have nothing : before = [] := by
          apply Strip.eq_nil_of_strip _ empty
          intro c found
          apply stripped.first c
          rw [Lines.eq_of_cut cut]
          exact List.head?_append_of_ne_nil before (by rintro rfl; cases found) ▸ found
        rw [Lines.eq_of_cut cut, nothing]
        rfl
      · rename_i filled
        exact parsing.iSet (name_of_cut cut stripped one_line no_comment no_section filled)
          (value_of_cut cut stripped complete)

theorem Parsing.next {stop : Bool} (parsing : Parsing s) (one_line : byte '\n' ∉ cline)
    (turn : s.next path_tildexpand cline eof = (after, stop)) : Parsing after := by
  obtain ⟨stripped, joined_line⟩ := parsing.joined one_line
  suffices found : Parsing (s.next path_tildexpand cline eof).1 by rwa [turn] at found
  unfold ParseState.next
  dsimp only
  -- the line which has been read takes the place of the old one
  have replaced (line : Bytes) (appending : Bool) (absent : byte '\n' ∉ line) :
      Parsing { s with line, appending } := by
    refine ⟨parsing.sound, parsing.opened, parsing.current, ?_⟩
    unfold ParseState.pending
    split
    · exact absent
    · exact List.not_mem_nil
  split
  · rename_i blank
    have comment : Comment (s.joined cline) :=
      ⟨stripped, joined_line, blank.imp_right Or.inl⟩
    split
    · exact replaced _ s.appending joined_line
    · exact (replaced _ s.appending joined_line).push_comment (commentLine_fits comment).1
        (commentLine_fits comment).2
  · rename_i filled
    split
    · exact replaced _ true fun member => joined_line (List.dropLast_subset _ member)
    · rename_i complete
      exact (replaced _ false joined_line).takeLine rfl stripped joined_line
        (fun comment => filled (.inr comment)) complete

theorem Parsing.parseLoop (input : Bytes) (parsing : Parsing s) :
    Parsing (parseLoop path_tildexpand input s) := by
  induction input, s using Conftree.parseLoop.induct path_tildexpand with
  | case1 input s cline rest got after turn =>
      rw [parseLoop_last got turn]
      exact parsing.next (Lines.not_mem_of_cut got) turn
  | case2 input s cline rest got after turn ih =>
      rw [parseLoop_more got turn]
      exact ih (parsing.next (Lines.not_mem_of_cut got) turn)

end

theorem next_status (path_tildexpand : Bytes → Bytes) (s : ParseState) (cline : Bytes)
    (eof : Bool) : (s.next path_tildexpand cline eof).1.conf.status = s.conf.status := by
  have assigned (s : ParseState) (nm value : Bytes) :
      (s.iSet nm value).conf.status = s.conf.status := by
    unfold ParseState.iSet
    split
    · rename_i done
      exact ConfSimple.iSet_status done
    · rfl
    · rfl
  unfold ParseState.next
  dsimp only
  split
  · split <;> rfl
  · split
    · rfl
    · unfold ParseState.takeLine
      split
      · rfl
      · split
        · rfl
        · dsimp only
          split
          · rfl
          · exact assigned _ _ _

theorem ofFile_status (path_tildexpand : Bytes → Bytes) (flags : Flags) (status : StatusCode)
    (content : Bytes) :
    (ConfSimple.ofFile path_tildexpand flags status content).status = status := by
  have loop (input : Bytes) (s : ParseState) :
      (parseLoop path_tildexpand input s).conf.status = s.conf.status := by
    induction input, s using Conftree.parseLoop.induct path_tildexpand with
    | case1 input s cline rest got after turn =>
        rw [parseLoop_last got turn, ← next_status path_tildexpand s cline rest.isNone, turn]
    | case2 input s cline rest got after turn ih =>
        rw [parseLoop_more got turn, ih, ← next_status path_tildexpand s cline rest.isNone, turn]
  exact loop content _

theorem sound_empty (status : StatusCode) : Sound { flags := {}, status } where
  flags := rfl
  lines line member := by cases member
  values nm sk value found := by cases found
  covered nm sk value found := by cases found

/-- Whatever there is in a file, its configuration is sound. -/
theorem sound_ofFile (path_tildexpand : Bytes → Bytes) (status : StatusCode) (content : Bytes) :
    Sound (ConfSimple.ofFile path_tildexpand {} status content) :=
  (Parsing.parseLoop content
    ⟨sound_empty status, section_nil, rfl, List.not_mem_nil⟩).sound

end Upmpdcli.Conftree
