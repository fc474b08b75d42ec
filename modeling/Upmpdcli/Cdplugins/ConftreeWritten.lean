import Upmpdcli.Cdplugins.ConftreeAgree

set_option autoImplicit false

/- What the plugins read from a file which the server has written. -/
namespace Upmpdcli.Pycommon

open Conftree

/-- A value which the plugins read back, too. They take more whitespace off its ends. -/
structure PlainValue (value : Bytes) : Prop extends Value value where
  plain : Strip.Stripped whitespace.contains value

/-- A value is read back as one line, however it has been cut. -/
theorem joinLines_broken {value printed : Bytes} (broken : Broken value printed)
    {pending : Option Bytes} {first : UInt8} {start q : Bytes}
    (before : pending.getD [] ++ q = start) (begins : start.head? = some first)
    (no_blank : whitespace.contains first = false) (no_comment : first ≠ byte '#')
    (one_line : byte '\n' ∉ q ++ value)
    (ends : ∀ c, (q ++ value).getLast? = some c → lineEnds.contains c = false)
    (complete : (trimstring (start ++ value) whitespace).getLast? ≠ some (byte '\\'))
    (more : Bytes) :
    joinLines whitespace pending (fileLines (q ++ printed ++ byte '\n' :: more)) =
      (trimstring (start ++ value) whitespace :: (joinLines whitespace none (fileLines more)).1,
        (joinLines whitespace none (fileLines more)).2) := by
  induction broken generalizing pending q start with
  | whole value =>
      have head_all : (start ++ value).head? = some first := by rw [List.head?_append, begins]; rfl
      have starts : ∀ c, (start ++ value).head? = some c → whitespace.contains c = false := by
        intro c found
        cases head_all.symm.trans found
        exact no_blank
      have filled : trimstring (start ++ value) whitespace ≠ [] := by
        intro empty
        rw [Strip.eq_nil_of_strip starts empty] at head_all
        cases head_all
      have head : (trimstring (start ++ value) whitespace).head? = some first :=
        (Strip.head_strip starts filled).trans head_all
      rw [fileLines_line one_line, joinLines, rtrimstring_of_last ends, ← List.append_assoc, before]
      rw [if_neg, if_neg complete]
      rw [head, not_or]
      exact ⟨filled, fun same => no_comment (Option.some.inj same)⟩
  | cut front filled rest ih =>
      rename_i back printed
      have chunk_line : byte '\n' ∉ q ++ front ++ [byte '\\'] := by
        simp only [List.mem_append, List.mem_singleton, not_or] at one_line ⊢
        exact ⟨⟨one_line.1, one_line.2.1⟩, by decide⟩
      have head_chunk : (start ++ front ++ [byte '\\']).head? = some first := by
        rw [List.head?_append, List.head?_append, begins]
        rfl
      have chunk_ends : ∀ c, (q ++ front ++ [byte '\\']).getLast? = some c →
          lineEnds.contains c = false := by
        intro c found
        rw [List.getLast?_concat] at found
        cases found
        decide
      have kept : trimstring (start ++ front ++ [byte '\\']) whitespace =
          start ++ front ++ [byte '\\'] := by
        apply Strip.strip_of_stripped
        constructor
        · intro c found
          cases head_chunk.symm.trans found
          exact no_blank
        · intro c found
          rw [List.getLast?_concat] at found
          cases found
          decide
      have cut : q ++ (front ++ byte '\\' :: byte '\n' :: printed) ++ byte '\n' :: more =
          q ++ front ++ [byte '\\'] ++ byte '\n' :: ([] ++ printed ++ byte '\n' :: more) := by simp
      have joined : pending.getD [] ++ (q ++ front ++ [byte '\\']) =
          start ++ front ++ [byte '\\'] := by
        rw [← before]
        simp
      rw [← List.append_assoc start] at complete ⊢
      rw [cut, fileLines_line chunk_line, joinLines, rtrimstring_of_last chunk_ends, joined, kept]
      rw [if_neg, if_pos List.getLast?_concat, List.dropLast_concat]
      · refine ih (List.append_nil _) ?_ ?_ ?_ complete
        · rw [List.head?_append, begins]
          rfl
        · intro member
          exact one_line (List.mem_append_right _ (List.mem_append_right _ member))
        · intro c found
          apply ends c
          rw [← List.append_assoc, List.getLast?_append_of_ne_nil _ filled]
          exact found
      · rw [head_chunk, not_or]
        exact ⟨by simp, fun same => no_comment (Option.some.inj same)⟩

section

variable {nm value : Bytes}

theorem stripped_of_identifier (identifier : Identifier nm) :
    Strip.Stripped whitespace.contains nm := by
  have plain (c : UInt8) (member : c ∈ nm) : whitespace.contains c = false := by
    have fine := identifier.plain c member
    have blank : c ∉ whitespace := by
      intro inside
      simp only [whitespace, List.mem_cons, List.not_mem_nil, or_false] at inside
      rcases inside with rfl | rfl | rfl | rfl | rfl | rfl
      · exact fine.1 (by decide)
      · exact fine.1 (by decide)
      · exact fine.1 (by decide)
      · exact fine.1 (by decide)
      · exact fine.2.1 rfl
      · exact fine.2.2 rfl
    simpa using blank
  exact ⟨fun c first => plain c (List.mem_of_head? first),
    fun c last => plain c (List.mem_of_getLast? last)⟩

/-- The line of a variable, without the whitespace at its ends. -/
theorem trimmed_line (identifier : Identifier nm) (fits : PlainValue value) :
    ∃ behind, trimstring (nm ++ [byte ' ', byte '=', byte ' '] ++ value) whitespace =
        nm ++ [byte ' '] ++ byte '=' :: behind ∧ trimstring behind whitespace = value ∧
      (nm ++ [byte ' '] ++ byte '=' :: behind).getLast? ≠ some (byte '\\') := by
  have starts (behind : Bytes) :
      ∀ c, (nm ++ behind).head? = some c → whitespace.contains c = false := by
    intro c found
    rw [List.head?_append_of_ne_nil _ identifier.filled] at found
    exact (stripped_of_identifier identifier).first c found
  by_cases empty : value = []
  · subst empty
    have shape : nm ++ [byte ' ', byte '=', byte ' '] ++ [] =
        nm ++ [byte ' ', byte '='] ++ [byte ' '] := by simp
    refine ⟨[], ?_, rfl, by simpa using by decide⟩
    rw [shape, trimstring, Strip.strip_concat (by decide), Strip.strip_of_stripped]
    · simp
    · refine ⟨starts _, ?_⟩
      intro c found
      have last : (nm ++ [byte ' ', byte '=']).getLast? = some (byte '=') := by simp
      cases last.symm.trans found
      decide
  · have last : (nm ++ [byte ' '] ++ byte '=' :: byte ' ' :: value).getLast? = value.getLast? := by
      have whole : nm ++ [byte ' '] ++ byte '=' :: byte ' ' :: value =
          nm ++ [byte ' ', byte '=', byte ' '] ++ value := by simp
      rw [whole, List.getLast?_append_of_ne_nil _ empty]
    refine ⟨byte ' ' :: value, ?_, ?_, last ▸ fits.no_continuation⟩
    · have shape : nm ++ [byte ' ', byte '=', byte ' '] ++ value =
          nm ++ [byte ' '] ++ byte '=' :: byte ' ' :: value := by simp
      rw [shape]
      refine Strip.strip_of_stripped ⟨?_, fun c found => fits.plain.last c (last ▸ found)⟩
      rw [List.append_assoc]
      exact starts _
    · rw [trimstring, Strip.strip_cons (by decide), Strip.strip_of_stripped fits.plain]

/-- A variable is one line for the plugins. -/
theorem joinLines_varprinter (identifier : Identifier nm) (fits : PlainValue value) (more : Bytes) :
    joinLines whitespace none (fileLines (varprinter nm value ++ more)) =
      (trimstring (nm ++ [byte ' ', byte '=', byte ' '] ++ value) whitespace ::
          (joinLines whitespace none (fileLines more)).1,
        (joinLines whitespace none (fileLines more)).2) := by
  obtain ⟨printed, broken, text⟩ := varprinter_broken identifier.filled value
  obtain ⟨first, rest, shape⟩ := List.exists_cons_of_ne_nil identifier.filled
  have here : first ∈ nm := shape ▸ List.mem_cons_self
  have begins : nm.head? = some first := by rw [shape]; rfl
  have start : (nm ++ [byte ' ', byte '=', byte ' ']).head? = some first := by
    rw [List.head?_append_of_ne_nil _ identifier.filled, begins]
  obtain ⟨behind, trimmed, -, complete⟩ := trimmed_line identifier fits
  have name := identifier.name
  have cut : varprinter nm value ++ more =
      nm ++ [byte ' ', byte '=', byte ' '] ++ printed ++ byte '\n' :: more := by
    rw [text, List.append_assoc, List.singleton_append]
  rw [cut]
  refine joinLines_broken broken rfl start ?_ ?_ ?_ ?_ ?_ more
  · exact (stripped_of_identifier identifier).first first begins
  · rintro rfl
    exact name.no_comment begins
  · simp only [List.mem_append, not_or]
    refine ⟨⟨name.one_line, by decide⟩, fun member => ?_⟩
    have broken_line := List.any_eq_false.mp fits.one_line (byte '\n') member
    exact broken_line (by decide)
  · intro c found
    by_cases empty : value = []
    · have last : (nm ++ [byte ' ', byte '=', byte ' '] ++ value).getLast? = some (byte ' ') := by
        simp [empty]
      cases last.symm.trans found
      decide
    · rw [List.getLast?_append_of_ne_nil _ empty] at found
      have fine := List.any_eq_false.mp fits.one_line c (List.mem_of_getLast? found)
      simpa using fine
  · show (trimstring (nm ++ [byte ' ', byte '=', byte ' '] ++ value) whitespace).getLast? ≠ _
    rw [trimmed]
    exact complete

/-- What the plugins find in a file of variables. -/
theorem pluginAssignments_varprinter {vars : List (Bytes × Bytes)}
    (fits : ∀ var ∈ vars, Identifier var.1 ∧ PlainValue var.2) :
    pluginAssignments (vars.flatMap fun var => varprinter var.1 var.2) =
      vars.map fun var => { header := [], nm := var.1, value := var.2 } := by
  unfold pluginAssignments
  induction vars with
  | nil =>
      rw [List.flatMap_nil, fileLines_nil]
      rfl
  | cons var vars ih =>
      rw [List.forall_mem_cons] at fits
      obtain ⟨behind, trimmed, value, -⟩ := trimmed_line fits.1.1 fits.1.2
      have name := fits.1.1.name
      rw [List.flatMap_cons, joinLines_varprinter fits.1.1 fits.1.2, trimmed, List.map_cons]
      dsimp only
      have no_section : (var.1 ++ [byte ' '] ++ byte '=' :: behind).head? ≠ some (byte '[') := by
        rw [List.append_assoc, List.head?_append_of_ne_nil _ name.filled]
        exact name.no_section
      have no_equal : byte '=' ∉ var.1 ++ [byte ' '] := by
        simp only [List.mem_append, List.mem_singleton, not_or]
        exact ⟨name.no_equal, by decide⟩
      rw [assignments, if_neg no_section, Lines.cut_append no_equal]
      dsimp only
      rw [ih fits.2, value, trimstring, Strip.strip_concat (by decide),
        Strip.strip_of_stripped (stripped_of_identifier fits.1.1)]

end

end Upmpdcli.Pycommon
