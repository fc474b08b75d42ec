import Upmpdcli.Cdplugins.Conftree
import Upmpdcli.ConftreeOrder
import Upmpdcli.ConftreeRoundTrip

set_option autoImplicit false

/- The two readers of configuration files, and the contents on which they agree. Both join
continued lines and keep the last assignment of a variable; they take different bytes off the
ends of a line, a section, a name and a value. -/
namespace Upmpdcli.Pycommon

open Conftree

/-- The lines with what they continue, without the comments and the blank lines, and what is
left of a continued line at the end. `ws` is taken off at both ends. -/
def joinLines (ws : Bytes) : Option Bytes → List Bytes → List Bytes × Option Bytes
  | pending, [] => ([], pending)
  | pending, cline :: rest =>
      let line := trimstring (pending.getD [] ++ rtrimstring cline lineEnds) ws
      if line = [] ∨ line.head? = some (byte '#') then
        joinLines ws (pending.map fun _ => line) rest
      else if line.getLast? = some (byte '\\') then joinLines ws (some line.dropLast) rest
      else (line :: (joinLines ws none rest).1, (joinLines ws none rest).2)

/-- What is taken off the end of a line which the file ends. -/
def lineRest : Bytes := byte '\\' :: blanks

/-- A line which ends with the file does not have its backslashes. -/
def lastLine : Option Bytes → List Bytes
  | none => []
  | some pending =>
      let line := rtrimstring (trimstring pending blanks) lineRest
      if line.head? = some (byte '#') then [] else [line]

/-- An assignment, with the line of the section it is in. -/
structure Assignment where
  header : Bytes
  nm : Bytes
  value : Bytes
deriving DecidableEq

def assignments (ws : Bytes) : Bytes → List Bytes → List Assignment
  | _, [] => []
  | header, line :: rest =>
      if line.head? = some (byte '[') then assignments ws line rest
      else
        match Lines.cut (byte '=') line with
        | (_, none) => assignments ws header rest
        | (before, some after) =>
            { header := header, nm := trimstring before ws, value := trimstring after ws } ::
              assignments ws header rest

/-- The line of the section behind the lines. -/
def lastHeader (header : Bytes) (lines : List Bytes) : Bytes :=
  lines.foldl (fun header line => if line.head? = some (byte '[') then line else header) header

/-- The section and the name of a variable, and its value. -/
abbrev Variable := (Bytes × Bytes) × Bytes

/-- What the reader of the server makes of an assignment. -/
def Assignment.cpp (a : Assignment) : Option Variable :=
  if a.nm = [] ∨ a.value.any lineEnds.contains = true then none
  else some ((trimstring a.header brackets, a.nm), a.value)

/-- What the reader of the plugins makes of it. -/
def Assignment.py (a : Assignment) : Variable :=
  ((trimstring a.header squareBrackets, a.nm), a.value)

theorem assignments_append (ws header : Bytes) (first second : List Bytes) :
    assignments ws header (first ++ second) =
      assignments ws header first ++ assignments ws (lastHeader header first) second := by
  induction first generalizing header with
  | nil => rfl
  | cons line rest ih =>
      rw [List.cons_append, assignments, assignments, lastHeader, List.foldl_cons]
      split
      · exact ih line
      · cases cut : Lines.cut (byte '=') line with
        | mk before after =>
            cases after with
            | none => exact ih header
            | some after => rw [List.cons_append]; exact congrArg _ (ih header)

section Cpp

variable {path_tildexpand : Bytes → Bytes} {conf : Conftree.ConfSimple}
  {s : Conftree.ParseState} {header value : Bytes}

/-- `i_set` during the parsing. -/
theorem find_iSet (flags : conf.flags = {}) (one_line : value.any lineEnds.contains = false)
    (nm sk : Bytes) :
    ∃ after, conf.iSet nm value sk true = .done after ∧ after.flags = {} ∧
      ∀ nm' sk', after.find nm' sk' =
        if nm' = nm ∧ sk' = sk then some value else conf.find nm' sk' := by
  obtain ⟨after, done⟩ := iSet_parsing conf one_line nm sk
  refine ⟨after, done, ?_⟩
  unfold ConfSimple.iSet at done
  rw [if_neg (by simp [one_line])] at done
  simp only [ConfSimple.key_of_flags flags, ConfSimple.subkey_of_flags flags] at done
  split at done
  · rename_i absent
    have empty : (VarMap.find conf.submaps sk).getD [] = [] := by rw [absent]; rfl
    split at done
    · cases done
      exact ⟨flags, ConfSimple.find_set flags rfl empty rfl⟩
    · cases done
      exact ⟨flags, ConfSimple.find_set flags rfl empty rfl⟩
  · rename_i submap found
    have filled : (VarMap.find conf.submaps sk).getD [] = submap := by rw [found]; rfl
    split at done
    · cases done
      exact ⟨flags, ConfSimple.find_set flags rfl filled rfl⟩
    · cases done
      exact ⟨flags, ConfSimple.find_set flags rfl filled rfl⟩

/-- The state of the reader of the server behind some lines, when it started from `find`. -/
structure Took (s after : Conftree.ParseState) (header : Bytes) (lines : List Bytes) : Prop where
  flags : after.conf.flags = {}
  submapkey : after.submapkey = trimstring (lastHeader header lines) brackets
  find : ∀ nm sk, after.conf.find nm sk =
    (VarMap.last ((assignments blanks header lines).filterMap Assignment.cpp) (sk, nm)).or
      (s.conf.find nm sk)

/-- A refused value is forgotten. -/
theorem iSet_took (flags : s.conf.flags = {}) (key : s.submapkey = trimstring header brackets)
    {nm : Bytes} (named : nm ≠ []) (value : Bytes) :
    (s.iSet nm value).conf.flags = {} ∧ (s.iSet nm value).submapkey = s.submapkey ∧
      ∀ nm' sk', (s.iSet nm value).conf.find nm' sk' =
        (VarMap.last ([Assignment.mk header nm value].filterMap Assignment.cpp) (sk', nm')).or
          (s.conf.find nm' sk') := by
  unfold Conftree.ParseState.iSet
  cases one_line : value.any lineEnds.contains with
  | true =>
      have refused : s.conf.iSet nm value s.submapkey true = .refused := by
        rw [ConfSimple.iSet, if_pos one_line]
      rw [refused]
      refine ⟨flags, rfl, fun nm' sk' => ?_⟩
      simp [Assignment.cpp, one_line]
      rfl
  | false =>
      obtain ⟨conf, done, same, find⟩ := find_iSet flags one_line nm s.submapkey
      have read : Assignment.cpp ⟨header, nm, value⟩ = some ((s.submapkey, nm), value) := by
        rw [Assignment.cpp, one_line, key]
        simp [named]
      rw [done]
      refine ⟨same, rfl, fun nm' sk' => ?_⟩
      dsimp only
      rw [find, List.filterMap_cons, read, List.filterMap_nil, VarMap.last_singleton]
      by_cases here : nm' = nm ∧ sk' = s.submapkey
      · simp [here]
      · rw [if_neg here, if_neg fun both => here ?_]
        · rfl
        · simpa [and_comm] using both

theorem Took.takeLine (flags : s.conf.flags = {})
    (key : s.submapkey = trimstring header brackets) (eof : Bool) :
    Took s (s.takeLine path_tildexpand eof).1 header [s.line] := by
  unfold Conftree.ParseState.takeLine
  by_cases opens : s.line.head? = some (byte '[')
  · rw [if_pos opens]
    refine ⟨flags, ?_, fun nm sk => ?_⟩
    · simp [Conftree.ParseState.push, lastHeader, opens, flags]
    · simp [assignments, opens]
      rfl
  · rw [if_neg opens]
    have stays : s.submapkey = trimstring (lastHeader header [s.line]) brackets := by
      simp [lastHeader, opens, key]
    cases cut : Lines.cut (byte '=') s.line with
    | mk before after =>
        cases after with
        | none =>
            refine ⟨flags, stays, fun nm sk => ?_⟩
            simp [assignments, opens, cut]
            rfl
        | some after =>
            dsimp only
            rw [flags, if_pos rfl]
            have one : assignments blanks header [s.line] =
                [{ header := header, nm := trimstring before blanks,
                   value := trimstring after blanks }] := by
              simp [assignments, opens, cut]
            by_cases empty : trimstring before blanks = []
            · rw [if_pos empty]
              refine ⟨flags, stays, fun nm sk => ?_⟩
              rw [one, empty]
              rfl
            · rw [if_neg empty]
              obtain ⟨same, submapkey, find⟩ :=
                iSet_took flags key empty (trimstring after blanks)
              refine ⟨same, submapkey.trans stays, fun nm sk => ?_⟩
              rw [one]
              exact find nm sk

theorem joinLines_cons (ws : Bytes) (pending : Option Bytes) (cline : Bytes)
    (rest : List Bytes) :
    joinLines ws pending (cline :: rest) =
      ((joinLines ws pending [cline]).1 ++
          (joinLines ws (joinLines ws pending [cline]).2 rest).1,
        (joinLines ws (joinLines ws pending [cline]).2 rest).2) := by
  simp only [joinLines]
  split
  · rfl
  · split <;> rfl

/-- What there is of a continued line. -/
def unread (s : Conftree.ParseState) : Option Bytes := if s.appending then some s.line else none

theorem getD_unread (s : Conftree.ParseState) : (unread s).getD [] = s.pending := by
  unfold unread Conftree.ParseState.pending
  split <;> rfl

theorem rtrim_trim {line : Bytes}
    (start : ∀ c, line.head? = some c → blanks.contains c = false) :
    rtrimstring (trimstring line blanks) lineRest = rtrimstring line lineRest := by
  rw [trimstring, Strip.strip_of_first start]
  exact Strip.rdropWhile_rdropWhile (fun c blank => by simp_all [lineRest]) line

theorem lastLine_trim (pending : Bytes) :
    lastLine (some (trimstring pending blanks)) = lastLine (some pending) := by
  have same : trimstring (trimstring pending blanks) blanks = trimstring pending blanks :=
    Strip.strip_strip (fun _ => id) pending
  rw [lastLine, lastLine, same]

/-- A comment or a blank line stays one without its end. -/
theorem assignments_lastLine {line : Bytes}
    (comment : line = [] ∨ line.head? = some (byte '#')) (header : Bytes) :
    assignments blanks header (lastLine (some line)) = [] := by
  have start : ∀ c, line.head? = some c → blanks.contains c = false := by
    rcases comment with rfl | comment
    · nofun
    · intro c found
      cases comment.symm.trans found
      decide
  rw [lastLine, rtrim_trim start]
  by_cases empty : rtrimstring line lineRest = []
  · rw [empty]
    rfl
  · rcases comment with rfl | comment
    · exact absurd rfl empty
    · have head : (rtrimstring line lineRest).head? = some (byte '#') :=
        (Strip.head_rdropWhile empty).trans comment
      rw [if_pos head]
      rfl

/-- The backslash of a continued line is taken off in any case. -/
theorem lastLine_dropLast {line : Bytes} (trimmed : Strip.Stripped blanks.contains line)
    (continued : line.getLast? = some (byte '\\')) :
    lastLine (some line.dropLast) = lastLine (some line) := by
  have whole : line.dropLast ++ [byte '\\'] = line := List.dropLast_append_getLast? _ continued
  have start : ∀ c, line.dropLast.head? = some c → blanks.contains c = false := by
    intro c found
    apply trimmed.first
    rw [← whole, List.head?_append, found]
    rfl
  have same : rtrimstring line lineRest = rtrimstring line.dropLast lineRest := by
    rw [← whole, rtrimstring, List.rdropWhile_concat_pos _ _ _ (by decide), whole]
    rfl
  rw [lastLine, lastLine, rtrim_trim start, rtrim_trim trimmed.first, same]

theorem lastLine_complete {line : Bytes} (trimmed : Strip.Stripped blanks.contains line)
    (no_comment : line.head? ≠ some (byte '#'))
    (complete : line.getLast? ≠ some (byte '\\')) : lastLine (some line) = [line] := by
  have same : rtrimstring line lineRest = line := by
    apply rtrimstring_of_last
    intro c found
    have not_blank := trimmed.last c found
    have not_backslash : c ≠ byte '\\' := fun same => complete (same ▸ found)
    simpa [lineRest, not_backslash] using not_blank
  rw [lastLine, rtrim_trim trimmed.first, same, if_neg no_comment]

/-- A turn of the loop of the server, and what is left to read when it was the last one. -/
theorem Took.next (path_tildexpand : Bytes → Bytes) (flags : s.conf.flags = {})
    (key : s.submapkey = trimstring header brackets) (cline : Bytes) (eof : Bool) :
    Took s (s.next path_tildexpand cline eof).1 header
        (joinLines blanks (unread s) [cline]).1 ∧
      unread (s.next path_tildexpand cline eof).1 = (joinLines blanks (unread s) [cline]).2 ∧
      ((s.next path_tildexpand cline eof).2 = true → ∀ header,
        assignments blanks header
          (lastLine (unread (s.next path_tildexpand cline eof).1)) = []) := by
  have joined := Conftree.ParseState.joined_of_flags flags cline
  rw [← getD_unread] at joined
  unfold Conftree.ParseState.next
  simp only [joinLines, ← joined]
  by_cases comment : s.joined cline = [] ∨ (s.joined cline).head? = some (byte '#')
  · rw [if_pos comment, if_pos comment]
    have kept : ∀ conf : Conftree.ConfSimple,
        unread { s with conf := conf, line := s.joined cline } =
          (unread s).map fun _ => s.joined cline := by
      intro conf
      unfold unread
      cases s.appending <;> rfl
    have ending : ∀ header, assignments blanks header
        (lastLine ((unread s).map fun _ => s.joined cline)) = [] := by
      intro header
      cases unread s with
      | none => rfl
      | some _ => exact assignments_lastLine comment header
    split
    · exact ⟨⟨flags, key, fun _ _ => rfl⟩, kept _, fun _ => kept s.conf ▸ ending⟩
    · exact ⟨⟨flags, key, fun _ _ => rfl⟩, kept _, nofun⟩
  · rw [if_neg comment, if_neg comment]
    split
    · exact ⟨⟨flags, key, fun _ _ => rfl⟩, rfl, nofun⟩
    · let line : Conftree.ParseState := { s with line := s.joined cline, appending := false }
      have took : Took line (line.takeLine path_tildexpand eof).1 header [line.line] :=
        Took.takeLine (s := line) flags key eof
      have complete : unread (line.takeLine path_tildexpand eof).1 = none := by
        rw [unread, Conftree.ParseState.appending_takeLine rfl]
        rfl
      refine ⟨⟨took.flags, took.submapkey, took.find⟩, complete, fun _ header => ?_⟩
      rw [complete]
      rfl

theorem cut_nil : Lines.cut (byte '\n') [] = ([], none) := rfl

theorem parseLoop_idle (complete : s.appending = false) :
    (parseLoop path_tildexpand [] s).conf = s.conf := by
  have joined : s.joined [] = [] := by
    unfold Conftree.ParseState.joined
    simp only [complete]
    split <;> rfl
  have turn : s.next path_tildexpand [] true = ({ s with line := [] }, true) := by
    unfold Conftree.ParseState.next
    rw [joined]
    rfl
  rw [parseLoop_last cut_nil turn]

/-- A state from which the loop stops, or goes on behind the end of the file. -/
theorem parseLoop_end {cline : Bytes} (got : Lines.cut (byte '\n') cline = (cline, none)) :
    parseLoop path_tildexpand cline s =
      if (s.next path_tildexpand cline true).2 = true then (s.next path_tildexpand cline true).1
      else parseLoop path_tildexpand [] (s.next path_tildexpand cline true).1 := by
  cases turn : s.next path_tildexpand cline true with
  | mk after stop =>
      cases stop with
      | true => exact parseLoop_last got turn
      | false => exact parseLoop_more got turn

/-- A line which is complete at the end of the file is the last one. -/
theorem parseLoop_complete {line : Bytes} (joined : s.joined [] = line) (filled : line ≠ [])
    (no_comment : line.head? ≠ some (byte '#')) (complete : line.getLast? ≠ some (byte '\\')) :
    (parseLoop path_tildexpand [] s).conf =
      ({ s with line := line, appending := false }.takeLine path_tildexpand true).1.conf := by
  rw [parseLoop_end cut_nil,
    Conftree.ParseState.next_complete joined filled no_comment complete true]
  split
  · rfl
  · exact parseLoop_idle (Conftree.ParseState.appending_takeLine rfl)

/-- What is read behind the end of the file. -/
theorem find_parseLoop_nil (flags : s.conf.flags = {})
    (key : s.submapkey = trimstring header brackets) (nm sk : Bytes) :
    (parseLoop path_tildexpand [] s).conf.find nm sk =
      (VarMap.last ((assignments blanks header (lastLine (unread s))).filterMap Assignment.cpp)
        (sk, nm)).or (s.conf.find nm sk) := by
  induction size : s.line.length using Nat.strong_induction_on generalizing s with
  | _ length ih =>
      cases appending : s.appending with
      | false =>
          rw [parseLoop_idle appending, unread, appending]
          rfl
      | true =>
          let line := trimstring s.line blanks
          have trimmed : Strip.Stripped blanks.contains line := Strip.strip_stripped _ _
          have pending : unread s = some s.line := by rw [unread, appending]; rfl
          have joined : s.joined [] = line := by
            rw [Conftree.ParseState.joined_of_flags flags, ← getD_unread, pending]
            simp [line, rtrimstring]
          rw [pending, ← lastLine_trim]
          by_cases comment : line = [] ∨ line.head? = some (byte '#')
          · have turn : s.next path_tildexpand [] true = ({ s with line := line }, true) := by
              unfold Conftree.ParseState.next
              rw [joined]
              simp only [if_pos comment, if_true]
            rw [parseLoop_end cut_nil, turn, if_pos rfl, assignments_lastLine comment]
            rfl
          · by_cases continued : line.getLast? = some (byte '\\')
            · let after : Conftree.ParseState :=
                { s with line := line.dropLast, appending := true }
              have turn : s.next path_tildexpand [] true = (after, false) := by
                unfold Conftree.ParseState.next
                rw [joined]
                simp only [if_neg comment, if_pos continued]
                rfl
              have shorter : after.line.length < length := by
                have filled := List.length_pos_iff.mpr fun empty => comment (.inl empty)
                have short := (Strip.strip_sublist blanks.contains s.line).length_le
                show line.dropLast.length < length
                rw [List.length_dropLast, ← size]
                exact Nat.lt_of_lt_of_le (Nat.sub_one_lt_of_lt filled) short
              rw [parseLoop_end cut_nil, turn, if_neg Bool.false_ne_true,
                ih _ shorter (s := after) flags key rfl, unread, if_pos rfl,
                lastLine_dropLast trimmed continued]
            · have no_comment : line.head? ≠ some (byte '#') := fun head => comment (.inr head)
              let ready : Conftree.ParseState := { s with line := line, appending := false }
              have took : Took ready (ready.takeLine path_tildexpand true).1 header [line] :=
                Took.takeLine (s := ready) flags key true
              rw [parseLoop_complete joined (fun empty => comment (.inl empty)) no_comment
                continued, took.find, lastLine_complete trimmed no_comment continued]

/-- The reader of the server. -/
theorem find_parseLoop (flags : s.conf.flags = {})
    (key : s.submapkey = trimstring header brackets) (content nm sk : Bytes) :
    (parseLoop path_tildexpand content s).conf.find nm sk =
      (VarMap.last ((assignments blanks header
        ((joinLines blanks (unread s) (fileLines content)).1 ++
          lastLine (joinLines blanks (unread s) (fileLines content)).2)).filterMap Assignment.cpp)
        (sk, nm)).or (s.conf.find nm sk) := by
  induction size : content.length using Nat.strong_induction_on generalizing content s header with
  | _ length ih =>
      rcases Lines.cut_cases (byte '\n') content with
        ⟨line, rest, one_line, rfl, -⟩ | ⟨one_line, got⟩
      · obtain ⟨took, later, -⟩ := Took.next path_tildexpand flags key line false
        have shorter : rest.length < length := by
          rw [← size, List.length_append, List.length_cons]
          omega
        rw [parseLoop_line one_line, fileLines_line one_line, joinLines_cons,
          ih _ shorter took.flags took.submapkey rest rfl, took.find, later, List.append_assoc,
          assignments_append blanks header, List.filterMap_append, VarMap.last_append,
          Option.or_assoc]
      · by_cases empty : content = []
        · subst empty
          rw [fileLines_nil]
          exact find_parseLoop_nil flags key nm sk
        · obtain ⟨took, later, ending⟩ := Took.next path_tildexpand flags key content true
          rw [fileLines_last one_line empty, assignments_append, List.filterMap_append,
            VarMap.last_append, Option.or_assoc, ← took.find, ← later,
            parseLoop_end got]
          by_cases stop : (s.next path_tildexpand content true).2 = true
          · rw [if_pos stop, ending stop]
            rfl
          · rw [if_neg stop]
            exact find_parseLoop_nil took.flags took.submapkey nm sk

end Cpp

section Py

variable {expanduser : Bytes → Bytes} {s : ParseState} {header : Bytes}

/-- The state of the reader of the plugins behind some lines. -/
structure Stored (s after : ParseState) (header : Bytes) (lines : List Bytes) : Prop where
  default : after.conf.Default
  submapkey : after.submapkey = trimstring (lastHeader header lines) squareBrackets
  getbin : ∀ nm sk, after.conf.getbin nm sk =
    (VarMap.last ((assignments whitespace header lines).map Assignment.py) (sk, nm)).or
      (s.conf.getbin nm sk)

theorem Stored.takeLine (default : s.conf.Default)
    (key : s.submapkey = trimstring header squareBrackets) :
    Stored s (s.takeLine expanduser) header [s.line] := by
  unfold ParseState.takeLine
  by_cases opens : s.line.head? = some (byte '[')
  · rw [if_pos opens]
    refine ⟨default, ?_, fun nm sk => ?_⟩
    · simp [lastHeader, opens, default.dotildexpand]
    · simp [assignments, opens]
      rfl
  · rw [if_neg opens]
    have stays : s.submapkey = trimstring (lastHeader header [s.line]) squareBrackets := by
      simp [lastHeader, opens, key]
    cases cut : Lines.cut (byte '=') s.line with
    | mk before after =>
        cases after with
        | none =>
            refine ⟨default, stays, fun nm sk => ?_⟩
            simp [assignments, opens, cut]
            rfl
        | some after =>
            refine ⟨⟨default.casesens, default.dotildexpand⟩, stays, fun nm sk => ?_⟩
            have one : (assignments whitespace header [s.line]).map Assignment.py =
                [((s.submapkey, trimstring before whitespace), trimstring after whitespace)] := by
              simp [assignments, opens, cut, Assignment.py, key]
            rw [one, VarMap.last_singleton]
            dsimp only
            rw [ConfSimple.getbin_store default]
            by_cases here : nm = trimstring before whitespace ∧ sk = s.submapkey
            · simp [here]
            · rw [if_neg here, if_neg fun both => here ?_]
              · rfl
              · simpa [and_comm] using both

/-- What the reader of the plugins has of a continued line. -/
def ParseState.unread (s : ParseState) : Option Bytes := if s.appending then some s.line else none

theorem Stored.next (expanduser : Bytes → Bytes) (default : s.conf.Default)
    (key : s.submapkey = trimstring header squareBrackets) (cline : Bytes) :
    Stored s (s.next expanduser cline) header (joinLines whitespace s.unread [cline]).1 ∧
      (s.next expanduser cline).unread = (joinLines whitespace s.unread [cline]).2 := by
  have joined : (if s.appending then s.line ++ rtrimstring cline lineEnds
      else rtrimstring cline lineEnds) = s.unread.getD [] ++ rtrimstring cline lineEnds := by
    unfold ParseState.unread
    cases s.appending <;> rfl
  unfold ParseState.next
  simp only [joinLines, joined]
  generalize trimstring (s.unread.getD [] ++ rtrimstring cline lineEnds) whitespace = line
  by_cases comment : line = [] ∨ line.head? = some (byte '#')
  · rw [if_pos comment, if_pos comment]
    refine ⟨⟨default, key, fun _ _ => rfl⟩, ?_⟩
    unfold ParseState.unread
    cases s.appending <;> rfl
  · rw [if_neg comment, if_neg comment]
    split
    · exact ⟨⟨default, key, fun _ _ => rfl⟩, rfl⟩
    · let ready : ParseState := { s with line := line, appending := false }
      have took : Stored ready (ready.takeLine expanduser) header [line] :=
        Stored.takeLine (s := ready) default key
      refine ⟨⟨took.default, took.submapkey, took.getbin⟩, ?_⟩
      have complete : (ready.takeLine expanduser).appending = false := by
        unfold ParseState.takeLine
        split
        · rfl
        · split <;> rfl
      rw [ParseState.unread, complete]
      rfl

/-- The reader of the plugins. -/
theorem getbin_foldl (default : s.conf.Default)
    (key : s.submapkey = trimstring header squareBrackets) (lines : List Bytes)
    (nm sk : Bytes) :
    (lines.foldl (ParseState.next expanduser) s).conf.getbin nm sk =
      (VarMap.last ((assignments whitespace header
        (joinLines whitespace s.unread lines).1).map Assignment.py) (sk, nm)).or
        (s.conf.getbin nm sk) := by
  induction lines generalizing s header with
  | nil => rfl
  | cons cline rest ih =>
      obtain ⟨took, later⟩ := Stored.next expanduser default key cline
      rw [List.foldl_cons, joinLines_cons whitespace s.unread cline rest,
        ih took.default took.submapkey, took.getbin, later, assignments_append, List.map_append,
        VarMap.last_append, Option.or_assoc]

end Py

/-- The assignments which the reader of the server finds behind each other, and what it makes of
a continued line at the end of the file. -/
def serverLines (content : Bytes) : List Bytes := (joinLines blanks none (fileLines content)).1

def serverEnd (content : Bytes) : List Bytes :=
  lastLine (joinLines blanks none (fileLines content)).2

def serverAssignments (content : Bytes) : List Assignment :=
  assignments blanks [] (serverLines content)

def endAssignments (content : Bytes) : List Assignment :=
  assignments blanks (lastHeader [] (serverLines content)) (serverEnd content)

def pluginAssignments (content : Bytes) : List Assignment :=
  assignments whitespace [] (joinLines whitespace none (fileLines content)).1

section Agree

variable {path_tildexpand expanduser : Bytes → Bytes} {content : Bytes}

theorem server_get {status : StatusCode} (readable : status ≠ .error) (nm sk : Bytes) :
    (Conftree.ConfSimple.ofFile path_tildexpand {} status content).get nm sk =
      VarMap.last ((serverAssignments content ++ endAssignments content).filterMap Assignment.cpp)
        (sk, nm) := by
  let start : Conftree.ParseState := { conf := { flags := {}, status := status } }
  have key : start.submapkey = trimstring [] brackets := rfl
  have found : (parseLoop path_tildexpand content start).conf.find nm sk = _ :=
    find_parseLoop rfl key content nm sk
  have nothing : start.conf.find nm sk = none := rfl
  rw [nothing, Option.or_none, assignments_append] at found
  rw [ConfSimple.get, ofFile_status, if_neg readable]
  exact found

theorem plugin_getbin (nm sk : Bytes) :
    (ConfSimple.ofFile expanduser content).getbin nm sk =
      VarMap.last ((pluginAssignments content).map Assignment.py) (sk, nm) := by
  let start : ParseState := { conf := {} }
  have key : start.submapkey = trimstring [] squareBrackets := rfl
  have found : ((fileLines content).foldl (ParseState.next expanduser) start).conf.getbin nm sk =
      _ := getbin_foldl ⟨rfl, rfl⟩ key (fileLines content) nm sk
  have nothing : start.conf.getbin nm sk = none := by
    have submaps : start.conf.submaps = VarMap.set [] [] [] := rfl
    rw [ConfSimple.getbin, submaps, VarMap.find_set]
    split <;> rfl
  rw [nothing, Option.or_none] at found
  exact found

/-- The two readers give the same for every name and section. -/
def Agree (path_tildexpand expanduser : Bytes → Bytes) (content : Bytes) : Prop :=
  ∀ status, status ≠ .error → ∀ nm sk,
    (Conftree.ConfSimple.ofFile path_tildexpand {} status content).get nm sk =
      (ConfSimple.ofFile expanduser content).getbin nm sk

/-- The other whitespace of the plugins makes no difference to an assignment. -/
def ReadAlike (content : Bytes) : Prop := serverAssignments content = pluginAssignments content

/-- Every assignment has a name, there are no blanks inside the brackets of its section, no
variable is left with a carriage return in its value, and the end of the file assigns nothing
new. -/
structure Plain (content : Bytes) : Prop where
  named : ∀ a ∈ serverAssignments content, a.nm ≠ []
  headed : ∀ a ∈ serverAssignments content,
    trimstring a.header brackets = trimstring a.header squareBrackets
  one_line : ∀ key value,
    VarMap.last ((serverAssignments content).map Assignment.py) key = some value →
      value.any lineEnds.contains = false
  ended : ∀ a ∈ endAssignments content, ∀ var, a.cpp = some var →
    VarMap.last ((serverAssignments content).map Assignment.py) var.1 = some var.2

theorem cpp_eq_some {a : Assignment} {var : Variable} (read : a.cpp = some var) :
    a.nm ≠ [] ∧ a.value.any lineEnds.contains = false ∧
      var = ((trimstring a.header brackets, a.nm), a.value) := by
  unfold Assignment.cpp at read
  split at read
  · cases read
  · rename_i fits
    cases read
    exact ⟨fun empty => fits (.inl empty), by simpa using fun broken => fits (.inr broken), rfl⟩

/-- What the server reads before the end of the file, but for the values it refuses. -/
theorem filterMap_cpp {as : List Assignment} (named : ∀ a ∈ as, a.nm ≠ [])
    (headed : ∀ a ∈ as, trimstring a.header brackets = trimstring a.header squareBrackets) :
    as.filterMap Assignment.cpp =
      (as.map Assignment.py).filter fun var => !var.2.any lineEnds.contains := by
  induction as with
  | nil => rfl
  | cons a rest ih =>
      rw [List.forall_mem_cons] at named headed
      rw [List.filterMap_cons, List.map_cons, List.filter_cons, ih named.2 headed.2,
        Assignment.cpp, headed.1]
      cases broken : a.value.any lineEnds.contains <;> simp [named.1, Assignment.py, broken]

/-- Nothing is taken off a section which the server could have read. -/
theorem headed_of_read {header other : Bytes}
    (read : trimstring other brackets = trimstring header squareBrackets) :
    trimstring header brackets = trimstring header squareBrackets := by
  have less : ∀ c, squareBrackets.contains c = true → brackets.contains c = true := by
    intro c member
    simp_all [squareBrackets, brackets]
    tauto
  have twice : trimstring (trimstring header squareBrackets) brackets =
      trimstring header brackets := Strip.strip_strip less header
  rw [← twice, ← read]
  exact Strip.strip_strip (fun _ => id) other

theorem endAssignments_eq {a : Assignment} (member : a ∈ endAssignments content) :
    endAssignments content = [a] := by
  have short (header line : Bytes) : (assignments blanks header [line]).length ≤ 1 := by
    rw [assignments]
    split
    · exact Nat.zero_le 1
    · split
      · exact Nat.zero_le 1
      · exact le_rfl
  have one : (endAssignments content).length ≤ 1 := by
    unfold endAssignments serverEnd
    cases (joinLines blanks none (fileLines content)).2 with
    | none => exact Nat.zero_le 1
    | some pending =>
        unfold lastLine
        dsimp only
        split
        · exact Nat.zero_le 1
        · exact short _ _
  obtain ⟨only, whole⟩ := List.length_eq_one_iff.mp
    (Nat.le_antisymm one (List.length_pos_of_mem member))
  rw [whole, List.mem_singleton] at member
  rw [whole, member]

/-- The assignment which the file ends with. -/
theorem last_end {a : Assignment} {var : Variable} (member : a ∈ endAssignments content)
    (read : a.cpp = some var) :
    VarMap.last ((endAssignments content).filterMap Assignment.cpp) var.1 = some var.2 := by
  rw [endAssignments_eq member, List.filterMap_cons, read, List.filterMap_nil,
    VarMap.last_singleton, if_pos rfl]

theorem agree_of_plain (alike : ReadAlike content) (plain : Plain content) :
    Agree path_tildexpand expanduser content := by
  intro status readable nm sk
  have kept : ∀ value,
      VarMap.last ((serverAssignments content).map Assignment.py) (sk, nm) = some value →
        (!value.any lineEnds.contains) = true := by
    intro value found
    rw [plain.one_line _ value found]
    rfl
  rw [server_get readable, plugin_getbin, List.filterMap_append, VarMap.last_append,
    filterMap_cpp plain.named plain.headed, VarMap.last_filter _ _ kept, ← alike]
  cases found : VarMap.last ((endAssignments content).filterMap Assignment.cpp) (sk, nm) with
  | none => rfl
  | some value =>
      obtain ⟨a, member, read⟩ := List.mem_filterMap.mp (VarMap.mem_of_last found)
      exact (plain.ended a member _ read).symm

theorem plain_of_agree (alike : ReadAlike content)
    (agree : Agree path_tildexpand expanduser content) : Plain content := by
  have readable : StatusCode.ro ≠ .error := nofun
  -- What the plugins find, the server has read.
  have read : ∀ key value,
      VarMap.last ((serverAssignments content).map Assignment.py) key = some value →
        ∃ a : Assignment, a.cpp = some (key, value) := by
    intro key value found
    have same := agree .ro readable key.2 key.1
    rw [server_get readable, plugin_getbin, ← alike, found] at same
    obtain ⟨a, -, taken⟩ := List.mem_filterMap.mp (VarMap.mem_of_last same)
    exact ⟨a, taken⟩
  have assigned : ∀ a ∈ serverAssignments content, a.nm ≠ [] ∧
      ∃ other : Bytes, trimstring other brackets = trimstring a.header squareBrackets := by
    intro a member
    have found : VarMap.last ((serverAssignments content).map Assignment.py) a.py.1 ≠ none :=
      VarMap.last_ne_none_of_mem (List.mem_map_of_mem member)
    obtain ⟨value, some_value⟩ := Option.ne_none_iff_exists'.mp found
    obtain ⟨b, taken⟩ := read _ value some_value
    obtain ⟨named, -, var⟩ := cpp_eq_some taken
    have nm : a.nm = b.nm := congrArg (fun var => var.1.2) var
    exact ⟨nm ▸ named, b.header, congrArg (fun var => var.1.1) var.symm⟩
  refine ⟨fun a member => (assigned a member).1, fun a member => ?_, fun key value found => ?_,
    fun a member var taken => ?_⟩
  · obtain ⟨other, same⟩ := (assigned a member).2
    exact headed_of_read same
  · obtain ⟨a, taken⟩ := read key value found
    obtain ⟨-, one_line, var⟩ := cpp_eq_some taken
    have same : value = a.value := congrArg Prod.snd var
    exact same ▸ one_line
  · have same := agree .ro readable var.1.2 var.1.1
    rw [server_get readable, plugin_getbin, List.filterMap_append, VarMap.last_append,
      last_end member taken, ← alike] at same
    exact same.symm

theorem readers_agree_iff (alike : ReadAlike content) :
    Agree path_tildexpand expanduser content ↔ Plain content :=
  ⟨plain_of_agree alike, agree_of_plain alike⟩

/-- A continued line, a comment and a section. -/
theorem agree_plain_lines :
    let lines := [bytes "a = b \\", bytes " c", bytes "# x = y", bytes "[s]", bytes " d=e "]
    Agree id id (lines.flatMap (· ++ [byte '\n'])) := by
  intro lines
  have read : fileLines (lines.flatMap (· ++ [byte '\n'])) = lines :=
    fileLines_flatMap (by decide)
  have server : serverAssignments (lines.flatMap (· ++ [byte '\n'])) =
      [{ header := [], nm := bytes "a", value := bytes "b  c" },
        { header := bytes "[s]", nm := bytes "d", value := bytes "e" }] := by
    unfold serverAssignments serverLines
    rw [read]
    decide
  have ending : endAssignments (lines.flatMap (· ++ [byte '\n'])) = [] := by
    unfold endAssignments serverEnd serverLines
    rw [read]
    decide
  have alike : ReadAlike (lines.flatMap (· ++ [byte '\n'])) := by
    rw [ReadAlike, server]
    unfold pluginAssignments
    rw [read]
    decide
  refine (readers_agree_iff alike).mpr ⟨?_, ?_, fun key value found => ?_, ?_⟩
  · rw [server]
    decide
  · rw [server]
    decide
  · rw [server] at found
    have values : ∀ var ∈ [((([], bytes "a"), bytes "b  c") : Variable),
        ((bytes "s", bytes "d"), bytes "e")], var.2.any lineEnds.contains = false := by decide
    exact values _ (VarMap.mem_of_last found)
  · rw [ending]
    nofun

/-- A continued line at the end of the file is an assignment for the server alone. -/
theorem readers_not_agree : ¬ ∀ (path_tildexpand expanduser : Bytes → Bytes) (content : Bytes),
    Agree path_tildexpand expanduser content := by
  intro always
  have read : fileLines (bytes "a = b\\") = [bytes "a = b\\"] :=
    fileLines_last (by decide) (by decide)
  have readable : StatusCode.ro ≠ .error := nofun
  have same := always id id (bytes "a = b\\") .ro readable (bytes "a") []
  rw [server_get readable, plugin_getbin] at same
  unfold serverAssignments endAssignments serverEnd serverLines pluginAssignments at same
  rw [read] at same
  exact absurd same (by decide)

end Agree

end Upmpdcli.Pycommon
