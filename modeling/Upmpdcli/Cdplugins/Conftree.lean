import Upmpdcli.Conftree

set_option autoImplicit false

/- The reader of configuration files which the plugins use. -/
namespace Upmpdcli.Pycommon

open Conftree

/-- What `strip` takes off a bytes object. -/
def whitespace : Bytes := [byte ' ', byte '\t', byte '\n', byte '\r', 0x0b, 0x0c]

def squareBrackets : Bytes := [byte '[', byte ']']

structure ConfSimple where
  casesens : Bool := true
  dotildexpand : Bool := false
  submaps : List (Bytes × Submap) := [([], [])]
deriving DecidableEq

namespace ConfSimple

/-- Two keys are the same one in a dictionary of `_makedict` when this makes them equal. -/
def key (conf : ConfSimple) (name : Bytes) : Bytes := caseKey (!conf.casesens) name

def getbin (conf : ConfSimple) (nm sk : Bytes) : Option Bytes :=
  (VarMap.find conf.submaps (conf.key sk)).bind fun submap => VarMap.find submap (conf.key nm)

/-- `self.submaps[submapkey][nm] = value`, with a new submap if there is none. -/
def store (conf : ConfSimple) (submapkey nm value : Bytes) : ConfSimple :=
  let submap := (VarMap.find conf.submaps (conf.key submapkey)).getD []
  { conf with
    submaps := VarMap.set conf.submaps (conf.key submapkey)
      (VarMap.set submap (conf.key nm) value) }

end ConfSimple

/-- The lines of a file, without their ends. -/
def fileLines (content : Bytes) : List Bytes :=
  if content = [] then []
  else
    match _got : Lines.cut (byte '\n') content with
    | (line, none) => [line]
    | (line, some rest) => line :: fileLines rest
termination_by content.length
decreasing_by exact Lines.length_cut _got

/-- The variables of `_parseinput`. -/
structure ParseState where
  conf : ConfSimple
  appending : Bool := false
  line : Bytes := []
  submapkey : Bytes := []
deriving DecidableEq

namespace ParseState

/-- What is done with a complete line which is no comment. -/
def takeLine (expanduser : Bytes → Bytes) (s : ParseState) : ParseState :=
  if s.line.head? = some (byte '[') then
    let line := trimstring s.line squareBrackets
    { s with line := line, submapkey := if s.conf.dotildexpand then expanduser line else line }
  else
    match Lines.cut (byte '=') s.line with
    | (_, none) => s
    | (before, some after) =>
        { s with
          conf := s.conf.store s.submapkey (trimstring before whitespace)
            (trimstring after whitespace) }

/-- One turn of the loop of `_parseinput`. -/
def next (expanduser : Bytes → Bytes) (s : ParseState) (cline : Bytes) : ParseState :=
  let cline := rtrimstring cline lineEnds
  let line := trimstring (if s.appending then s.line ++ cline else cline) whitespace
  if line = [] ∨ line.head? = some (byte '#') then { s with line := line }
  else if line.getLast? = some (byte '\\') then
    { s with line := line.dropLast, appending := true }
  else takeLine expanduser { s with line := line, appending := false }

end ParseState

def parseinput (expanduser : Bytes → Bytes) (conf : ConfSimple) (content : Bytes) : ConfSimple :=
  ((fileLines content).foldl (ParseState.next expanduser) { conf }).conf

/-- A `ConfSimple` which is built from a file with this content. -/
def ConfSimple.ofFile (expanduser : Bytes → Bytes) (content : Bytes) : ConfSimple :=
  parseinput expanduser {} content

section

variable {line rest : Bytes}

theorem fileLines_nil : fileLines [] = [] := by
  rw [fileLines, if_pos rfl]

theorem fileLines_line (one_line : byte '\n' ∉ line) (rest : Bytes) :
    fileLines (line ++ byte '\n' :: rest) = line :: fileLines rest := by
  have got := Lines.cut_append one_line rest
  rw [fileLines, if_neg (by simp)]
  split
  · rename_i got'
    cases got.symm.trans got'
  · rename_i got'
    cases got.symm.trans got'
    rfl

theorem fileLines_last (one_line : byte '\n' ∉ line) (filled : line ≠ []) :
    fileLines line = [line] := by
  have got := Lines.cut_of_not_mem one_line
  rw [fileLines, if_neg filled]
  split
  · rename_i got'
    cases got.symm.trans got'
    rfl
  · rename_i got'
    cases got.symm.trans got'

end

/-- Lines with their ends are read one by one. -/
theorem fileLines_flatMap {lines : List Bytes} (one_line : ∀ line ∈ lines, byte '\n' ∉ line) :
    fileLines (lines.flatMap (· ++ [byte '\n'])) = lines := by
  induction lines with
  | nil => exact fileLines_nil
  | cons line rest ih =>
      rw [List.forall_mem_cons] at one_line
      rw [List.flatMap_cons, List.append_assoc, List.singleton_append,
        fileLines_line one_line.1, ih one_line.2]

/-- With the defaults of the constructor. -/
structure ConfSimple.Default (conf : ConfSimple) : Prop where
  casesens : conf.casesens = true
  dotildexpand : conf.dotildexpand = false

namespace ConfSimple

variable {conf : ConfSimple}

theorem key_of_default (default : conf.Default) (name : Bytes) : conf.key name = name := by
  rw [key, default.casesens]
  rfl

theorem getbin_store (default : conf.Default) (submapkey nm value nm' sk' : Bytes) :
    (conf.store submapkey nm value).getbin nm' sk' =
      if nm' = nm ∧ sk' = submapkey then some value else conf.getbin nm' sk' := by
  have stored : (conf.store submapkey nm value).Default := ⟨default.casesens, default.dotildexpand⟩
  unfold getbin
  rw [key_of_default stored, key_of_default stored, key_of_default default,
    key_of_default default]
  unfold store
  rw [key_of_default default, key_of_default default, VarMap.find_set]
  by_cases here : sk' = submapkey
  · subst here
    rw [if_pos rfl, Option.bind_some, VarMap.find_set]
    by_cases named : nm' = nm
    · simp [named]
    · rw [if_neg named, if_neg fun both => named both.1]
      cases VarMap.find conf.submaps sk' <;> rfl
  · rw [if_neg here, if_neg fun both => here both.2]

end ConfSimple

end Upmpdcli.Pycommon
