import Upmpdcli.Bytes
import Upmpdcli.Lib.Lines
import Upmpdcli.Lib.Strip
import Upmpdcli.Lib.VarMap

set_option autoImplicit false

/- Configuration files: the parser of `ConfSimple`, its variables, and the rewriting of the
file when one of them is set. -/
namespace Upmpdcli.Conftree

/-- The default of the `ws` of `trimstring`. -/
def blanks : Bytes := [byte ' ', byte '\t']

def lineEnds : Bytes := [byte '\n', byte '\r']

/-- What is taken off both ends of a section line. -/
def brackets : Bytes := [byte '[', byte ']', byte ' ', byte '\t']

def trimstring (s ws : Bytes) : Bytes := Strip.strip ws.contains s

def rtrimstring (s ws : Bytes) : Bytes := s.rdropWhile ws.contains

def ltrimstring (s ws : Bytes) : Bytes := s.dropWhile ws.contains

def tolower (c : UInt8) : UInt8 := if byte 'A' ≤ c ∧ c ≤ byte 'Z' then c + 32 else c

/-- Two keys are the same one for a `CaseComparator` when this makes them equal. -/
def caseKey (nocase : Bool) (key : Bytes) : Bytes := if nocase then key.map tolower else key

/-- The flags of the constructors. -/
structure Flags where
  tildexp : Bool := false
  trimvalues : Bool := true
  submapNocase : Bool := false
  keyNocase : Bool := false
deriving DecidableEq

inductive Kind
  | comment
  | sk
  | var
  | varcomment
deriving DecidableEq

structure ConfLine where
  kind : Kind
  data : Bytes
  aux : Bytes := []
deriving DecidableEq

inductive StatusCode
  | error
  | ro
  | rw
deriving DecidableEq

abbrev Submap := List (Bytes × Bytes)

structure ConfSimple where
  flags : Flags := {}
  status : StatusCode := .rw
  /-- Whether there is an `m_filename`. -/
  hasFile : Bool := true
  holdWrites : Bool := false
  submaps : List (Bytes × Submap) := []
  order : List ConfLine := []
deriving DecidableEq

def ConfSimple.subkey (conf : ConfSimple) (sk : Bytes) : Bytes :=
  caseKey conf.flags.submapNocase sk

def ConfSimple.key (conf : ConfSimple) (nm : Bytes) : Bytes := caseKey conf.flags.keyNocase nm

/-- The variable in the submaps. -/
def ConfSimple.find (conf : ConfSimple) (nm sk : Bytes) : Option Bytes :=
  (VarMap.find conf.submaps (conf.subkey sk)).bind fun submap => VarMap.find submap (conf.key nm)

def ConfSimple.get (conf : ConfSimple) (nm sk : Bytes) : Option Bytes :=
  if conf.status = .error then none else conf.find nm sk

def ConfSimple.push (conf : ConfSimple) (line : ConfLine) : ConfSimple :=
  { conf with order := conf.order ++ [line] }

/-- `OrderComp` for a section line. -/
def ConfSimple.isSk (conf : ConfSimple) (sk : Bytes) (line : ConfLine) : Bool :=
  line.kind = .sk ∧ conf.subkey line.data = conf.subkey sk

/-- `OrderComp` for a variable. -/
def ConfSimple.isVar (conf : ConfSimple) (nm : Bytes) (line : ConfLine) : Bool :=
  line.kind = .var ∧ conf.key line.data = conf.key nm

/-- The variable goes behind the first line which assigns it in a comment, or else to the end
of the section. -/
def addVar (nm : Bytes) : List ConfLine → List ConfLine
  | [] => [{ kind := .var, data := nm }]
  | line :: rest =>
      if line.kind = .varcomment ∧ line.aux = nm then line :: { kind := .var, data := nm } :: rest
      else line :: addVar nm rest

/-- The lines up to the one of the section, and those which follow it. -/
def ConfSimple.startOf (conf : ConfSimple) (sk : Bytes) :
    Option (List ConfLine × List ConfLine) :=
  if sk = [] then some ([], conf.order)
  else
    match conf.order.dropWhile (fun line => ¬ conf.isSk sk line) with
    | [] => none
    | line :: rest => some (conf.order.takeWhile (fun line => ¬ conf.isSk sk line) ++ [line], rest)

inductive ISet
  | refused
  | done (conf : ConfSimple)
  | aborted
deriving DecidableEq

/-- The second half of `i_set`: the lines of a variable which did not exist. -/
def ConfSimple.orderVar (conf : ConfSimple) (nm sk : Bytes) (init : Bool) : ISet :=
  if init then .done (conf.push { kind := .var, data := nm })
  else
    match conf.startOf sk with
    | none => .aborted
    | some (before, rest) =>
        let zone := rest.takeWhile (fun line => line.kind ≠ .sk)
        let fin := rest.dropWhile (fun line => line.kind ≠ .sk)
        let zone := if zone.any (conf.isVar nm) then zone else addVar nm zone
        .done { conf with order := before ++ zone ++ fin }

def ConfSimple.iSet (conf : ConfSimple) (nm value sk : Bytes) (init : Bool) : ISet :=
  if value.any lineEnds.contains then .refused
  else
    match VarMap.find conf.submaps (conf.subkey sk) with
    | none =>
        let added := { conf with
          submaps := VarMap.set conf.submaps (conf.subkey sk) [(conf.key nm, value)] }
        if sk ≠ [] ∧ ¬ conf.order.any (conf.isSk sk) then
          (added.push { kind := .sk, data := sk }).orderVar nm sk init
        else added.orderVar nm sk init
    | some submap =>
        let updated := { conf with
          submaps := VarMap.set conf.submaps (conf.subkey sk)
            (VarMap.set submap (conf.key nm) value) }
        if (VarMap.find submap (conf.key nm)).isSome then .done updated
        else updated.orderVar nm sk init

/-- The value of a long variable is continued behind a blank. -/
def breakLoop : Nat → Bytes → Bytes
  | _, [] => []
  | ll, c :: rest =>
      if ll + 1 > 50 ∧ (c :: rest).length > 10 ∧ c ∈ blanks then
        c :: byte '\\' :: byte '\n' :: breakLoop 0 rest
      else c :: breakLoop (ll + 1) rest

def varprinter (nm value : Bytes) : Bytes :=
  if nm = [] then byte '\n' :: byte '[' :: value ++ [byte ']', byte '\n']
  else
    let printed := if nm.length + value.length < 75 then value else breakLoop 0 value
    nm ++ [byte ' ', byte '=', byte ' '] ++ printed ++ [byte '\n']

/-- The loop of `write`, inside the section `sk`. -/
def ConfSimple.writeLines (conf : ConfSimple) : Bytes → List ConfLine → Bytes
  | _, [] => []
  | sk, line :: rest =>
      match line.kind with
      | .comment | .varcomment => line.data ++ [byte '\n'] ++ conf.writeLines sk rest
      | .sk =>
          let header :=
            if (VarMap.find conf.submaps (conf.subkey line.data)).isSome then
              byte '[' :: line.data ++ [byte ']', byte '\n']
            else []
          header ++ conf.writeLines line.data rest
      | .var => ((conf.get line.data sk).map (varprinter line.data)).getD [] ++
          conf.writeLines sk rest

/-- Whether the file can be opened for writing, and whether all of it can be written. -/
structure WriteEnv where
  opened : Bool := true
  good : Bool := true
deriving DecidableEq

inductive Written
  | failed
  /-- There is no file, or the writes are held. -/
  | nowhere
  | file (content : Bytes)
deriving DecidableEq

def ConfSimple.write (conf : ConfSimple) (env : WriteEnv) : Written :=
  if conf.status = .error then .failed
  else if conf.holdWrites then .nowhere
  else if conf.hasFile then
    if env.opened ∧ env.good then .file (conf.writeLines [] conf.order) else .failed
  else .nowhere

inductive SetOutcome
  | failed
  | success (conf : ConfSimple) (written : Written)
  | aborted
deriving DecidableEq

def ConfSimple.set (conf : ConfSimple) (env : WriteEnv) (nm value sk : Bytes) : SetOutcome :=
  if conf.status ≠ .rw then .failed
  else
    match conf.iSet nm value sk false with
    | .refused => .failed
    | .aborted => .aborted
    | .done after =>
        match after.write env with
        | .failed => .failed
        | written => .success after written

def isAlnum (c : UInt8) : Bool :=
  (byte 'a' ≤ c ∧ c ≤ byte 'z') ∨ (byte 'A' ≤ c ∧ c ≤ byte 'Z') ∨ (byte '0' ≤ c ∧ c ≤ byte '9')

/-- The rest of `varcomment_rx` behind a `#`. -/
def varcommentName (rest : Bytes) : Option Bytes :=
  let name := (ltrimstring rest blanks).takeWhile isAlnum
  let behind := ltrimstring ((ltrimstring rest blanks).drop name.length) blanks
  if name ≠ [] ∧ behind.head? = some (byte '=') then some name else none

/-- A match of `varcomment_rx` anywhere in the line. -/
def varcomment : Bytes → Option Bytes
  | [] => none
  | c :: rest =>
      if c = byte '#' then (varcommentName rest).or (varcomment rest) else varcomment rest

def commentLine (line : Bytes) : ConfLine :=
  match varcomment (cString line) with
  | some name => { kind := .varcomment, data := line, aux := name }
  | none => { kind := .comment, data := line }

/-- The variables of `parseinput`. -/
structure ParseState where
  conf : ConfSimple
  submapkey : Bytes := []
  line : Bytes := []
  appending : Bool := false
deriving DecidableEq

/-- The line which is looked at once `cline` has been read. -/
def ParseState.joined (s : ParseState) (cline : Bytes) : Bytes :=
  let cline := rtrimstring cline lineEnds
  let line := if s.appending then s.line ++ cline else cline
  if s.conf.flags.trimvalues then trimstring line blanks else ltrimstring line blanks

def ParseState.push (s : ParseState) (line : ConfLine) : ParseState :=
  { s with conf := s.conf.push line }

/-- `i_set` during the parsing, which goes on whatever it returns. -/
def ParseState.iSet (s : ParseState) (nm value : Bytes) : ParseState :=
  match s.conf.iSet nm value s.submapkey true with
  | .done conf => { s with conf := conf }
  | .refused | .aborted => s

/-- What is done with a complete line which is no comment. -/
def ParseState.takeLine (path_tildexpand : Bytes → Bytes) (s : ParseState) (eof : Bool) :
    ParseState × Bool :=
  if s.line.head? = some (byte '[') then
    let line := trimstring s.line brackets
    let submapkey := if s.conf.flags.tildexp then path_tildexpand line else line
    ({ s with line := line, submapkey := submapkey }.push { kind := .sk, data := submapkey }, false)
  else
    match Lines.cut (byte '=') s.line with
    | (_, none) => (s.push { kind := .comment, data := s.line }, false)
    | (before, some after) =>
        let nm := trimstring before blanks
        let val := if s.conf.flags.trimvalues then trimstring after blanks else after
        if nm = [] then (s.push { kind := .comment, data := s.line }, false)
        else (s.iSet nm val, eof)

/-- One turn of the loop of `parseinput`, and whether it was the last one. -/
def ParseState.next (path_tildexpand : Bytes → Bytes) (s : ParseState) (cline : Bytes)
    (eof : Bool) : ParseState × Bool :=
  let line := s.joined cline
  if line = [] ∨ line.head? = some (byte '#') then
    if eof then ({ s with line := line }, true)
    else ({ s with line := line }.push (commentLine line), false)
  else if line.getLast? = some (byte '\\') then
    ({ s with line := line.dropLast, appending := true }, false)
  else { s with line := line, appending := false }.takeLine path_tildexpand eof

/-- What has been read of a continued line. -/
def ParseState.pending (s : ParseState) : Bytes := if s.appending then s.line else []

theorem ParseState.joined_sublist (s : ParseState) (cline : Bytes) :
    List.Sublist (s.joined cline) (s.pending ++ cline) := by
  have stripped : List.Sublist (rtrimstring cline lineEnds) cline :=
    (List.rdropWhile_prefix _ cline).sublist
  have appended : List.Sublist
      (if s.appending then s.line ++ rtrimstring cline lineEnds else rtrimstring cline lineEnds)
      (s.pending ++ cline) := by
    unfold ParseState.pending
    split
    · exact (List.Sublist.refl _).append stripped
    · exact stripped
  unfold ParseState.joined
  dsimp only
  split
  · exact (Strip.strip_sublist _ _).trans appended
  · exact (List.dropWhile_suffix _).sublist.trans appended

section

variable {path_tildexpand : Bytes → Bytes} {s after : ParseState} {cline : Bytes} {eof : Bool}

theorem ParseState.appending_takeLine (complete : s.appending = false) :
    (s.takeLine path_tildexpand eof).1.appending = false := by
  have kept (nm value : Bytes) : (s.iSet nm value).appending = false := by
    unfold ParseState.iSet
    split <;> exact complete
  unfold ParseState.takeLine
  split
  · exact complete
  · split
    · exact complete
    · dsimp only
      split
      · exact complete
      · exact kept _ _

theorem ParseState.takeLine_pending (complete : s.appending = false) :
    (s.takeLine path_tildexpand eof).1.pending = [] := by
  rw [ParseState.pending, ParseState.appending_takeLine complete]
  rfl

/-- A turn which is not the last one uses up its line, except for what is to be continued. -/
theorem ParseState.pending_next (going : s.next path_tildexpand cline eof = (after, false)) :
    after.pending.length + eof.toNat ≤ s.pending.length + cline.length := by
  have short := (s.joined_sublist cline).length_le
  rw [List.length_append] at short
  unfold ParseState.next at going
  dsimp only at going
  split at going
  · split at going
    · cases going
    · rename_i more
      cases going
      have kept : (if s.appending then s.joined cline else []).length ≤ (s.joined cline).length := by
        split <;> simp
      simp only [more, Bool.toNat_false, Nat.add_zero]
      exact kept.trans short
  · rename_i filled
    have some_left := List.length_pos_iff.mpr fun empty => filled (.inl empty)
    have last := eof.toNat_le
    split at going
    · cases going
      show (s.joined cline).dropLast.length + _ ≤ _
      rw [List.length_dropLast]
      omega
    · have none_left := congrArg (fun turn => turn.1.pending) going
      dsimp only at none_left
      rw [ParseState.takeLine_pending rfl] at none_left
      rw [← none_left, List.length_nil]
      omega

end

/-- The loop of `parseinput`. There is nothing left to read behind the end of the file, but the
end of a file inside a continued line takes more turns. -/
def parseLoop (path_tildexpand : Bytes → Bytes) (input : Bytes) (s : ParseState) : ParseState :=
  match _got : Lines.cut (byte '\n') input with
  | (cline, rest) =>
      match _turn : s.next path_tildexpand cline rest.isNone with
      | (after, true) => after
      | (after, false) => parseLoop path_tildexpand (rest.getD []) after
termination_by input.length + s.pending.length
decreasing_by
  have used := ParseState.pending_next _turn
  cases rest with
  | none =>
      cases Lines.eq_of_cut_none _got
      simp only [Option.isNone_none, Bool.toNat_true, Option.getD_none, List.length_nil] at used ⊢
      omega
  | some rest =>
      have whole := congrArg List.length (Lines.eq_of_cut _got)
      simp only [List.length_append, List.length_cons, Option.isNone_some, Bool.toNat_false,
        Option.getD_some] at used whole ⊢
      omega

section

variable {path_tildexpand : Bytes → Bytes} {input cline : Bytes} {rest : Option Bytes}
  {s after : ParseState}

theorem parseLoop_last (got : Lines.cut (byte '\n') input = (cline, rest))
    (turn : s.next path_tildexpand cline rest.isNone = (after, true)) :
    parseLoop path_tildexpand input s = after := by
  rw [parseLoop]
  split
  rename_i cline' rest' got'
  cases got.symm.trans got'
  split
  · rename_i turn'
    cases turn.symm.trans turn'
    rfl
  · rename_i turn'
    cases turn.symm.trans turn'

theorem parseLoop_more (got : Lines.cut (byte '\n') input = (cline, rest))
    (turn : s.next path_tildexpand cline rest.isNone = (after, false)) :
    parseLoop path_tildexpand input s = parseLoop path_tildexpand (rest.getD []) after := by
  rw [parseLoop]
  split
  rename_i cline' rest' got'
  cases got.symm.trans got'
  split
  · rename_i turn'
    cases turn.symm.trans turn'
  · rename_i turn'
    cases turn.symm.trans turn'
    rfl

end

def parseinput (path_tildexpand : Bytes → Bytes) (conf : ConfSimple) (input : Bytes) : ConfSimple :=
  (parseLoop path_tildexpand input { conf }).conf

/-- A `ConfSimple` which is built from a file with this content. -/
def ConfSimple.ofFile (path_tildexpand : Bytes → Bytes) (flags : Flags) (status : StatusCode)
    (content : Bytes) : ConfSimple :=
  parseinput path_tildexpand { flags, status } content

end Upmpdcli.Conftree
