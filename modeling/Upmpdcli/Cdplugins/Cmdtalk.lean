import Upmpdcli.Lib.Decimal
import Upmpdcli.Lib.Lines
import Upmpdcli.Lib.Strip
import Upmpdcli.Lib.VarMap
import Upmpdcli.Netcon
import Upmpdcli.Smallut

set_option autoImplicit false

/- The command protocol between the host and a plugin process. A message is made of elements,
and ended by an empty line. -/
namespace Upmpdcli.Cmdtalk

/-- The `unordered_map` of a message, in the order in which it is gone through. -/
abbrev Message := List (Bytes × Bytes)

/-- White space for `isspace`, and for the `split` of Python. -/
def whitespace (c : UInt8) : Bool := c = 32 || (9 ≤ c && c ≤ 13)

def colon (c : UInt8) : Bool := c = byte ':'

/-- What stands before the data of an element, with the end of the line. -/
def header (name : Bytes) (size : Nat) : Bytes :=
  name ++ byte ':' :: byte ' ' :: Decimal.print size ++ [byte '\n']

def element (name data : Bytes) : Bytes := header name data.length ++ data

/-- `sscanf` with `%d`. -/
def scanInt (text : Bytes) : Option Int :=
  let text := text.dropWhile whitespace
  let negative := text.head? = some (byte '-')
  let text := if negative ∨ text.head? = some (byte '+') then text.tail else text
  let digits := text.takeWhile Decimal.digit
  if digits = [] then none
  else
    let n : Int := Decimal.value digits 0
    some (wrap32 (max (-2 ^ 63) (min (if negative then -n else n) (2 ^ 63 - 1))))

inductive ElementRead
  | waiting
  | failed
  /-- The empty line. -/
  | ended (con : NetconData)
  | element (name data : Bytes) (con : NetconData)

def readDataElement (con : NetconData) : ElementRead :=
  match ExecCmd.getline con with
  | none => .waiting
  | some (ibuf, con) =>
      if ibuf = [] then .failed
      else if ibuf = [byte '\n'] then .ended con
      else
        match Lines.fields (fun c => c = byte ' ' || c = byte '\t') ibuf with
        | [name, slen] =>
            match scanInt slen with
            | none => .failed
            | some len =>
                if 0 < len then
                  match ExecCmd.receive con len.toNat with
                  | none => .waiting
                  | some (data, con) =>
                      if data.length = len.toNat then .element name data con else .failed
                else .element name [] con
        | _ => .failed

/-- An element uses up at least one byte. -/
theorem length_readDataElement {con after : NetconData} {name data : Bytes}
    (read : readDataElement con = .element name data after) :
    after.stream.length < con.stream.length := by
  unfold readDataElement at read
  split at read
  · cases read
  · rename_i ibuf next got
    have line := congrArg List.length (NetconData.getlineLoop_conserves got)
    split at read
    · cases read
    · rename_i some_line
      have long := List.length_pos_iff.mpr some_line
      rw [List.nil_append, List.length_append] at line
      split at read
      · cases read
      · split at read
        · split at read
          · cases read
          · rename_i len _
            split at read
            · rename_i positive
              split at read
              · cases read
              · rename_i received
                split at read
                · cases read
                  have behind := congrArg List.length
                    (ExecCmd.receiveLoop_conserves (by simpa using positive) received)
                  rw [List.nil_append, List.length_append] at behind
                  omega
                · cases read
            · cases read
              omega
        · cases read

inductive AnswerRead
  | waiting
  | failed
  | done (rep : Message) (con : NetconData)

/-- The loop of `talk` which reads the answer. -/
def readAnswer (con : NetconData) (rep : Message) : AnswerRead :=
  match _read : readDataElement con with
  | .waiting => .waiting
  | .failed => .failed
  | .ended con => .done rep con
  | .element name data con => readAnswer con (VarMap.set rep (Strip.strip colon name) data)
termination_by con.stream.length
decreasing_by exact length_readDataElement _read

/-- The Python values of parameters and of results. -/
inductive PyData
  | none
  | bytes (data : Bytes)
  | str (text : String)
deriving DecidableEq

def makebytes : PyData → Bytes
  | .none => []
  | .bytes data => data
  | .str text => text.toUTF8.data.toList

def decodeUtf8 (data : Bytes) : Option String := String.fromUTF8? ⟨data.toArray⟩

abbrev Params := List (Bytes × PyData)

/-- The digits of `int`, behind the first one. -/
def pyDigits : Bytes → Nat → Option Nat
  | [], n => some n
  | c :: rest, n =>
      if Decimal.digit c then pyDigits rest (10 * n + (c.toNat - 48))
      else if c = byte '_' ∧ (rest.head?.any Decimal.digit) then pyDigits rest n
      else none

def pyNat (text : Bytes) : Option Nat :=
  if text.head?.any Decimal.digit then pyDigits text 0 else none

/-- `int` of a word. -/
def pyInt (word : Bytes) : Option Int :=
  if word.head? = some (byte '-') then (pyNat word.tail).map fun n => -(n : Int)
  else if word.head? = some (byte '+') then (pyNat word.tail).map Int.ofNat
  else (pyNat word).map Int.ofNat

inductive ParamRead
  | waiting
  /-- An exception which nobody catches, or an `exit`. -/
  | died
  | param (name : Bytes) (data : PyData) (rest : Bytes)

/-- What becomes of the data of a parameter. -/
def decodeParam (nodecodeinput : Bool) (data : Bytes) : PyData :=
  if nodecodeinput then .bytes data
  else
    match decodeUtf8 data with
    | some text => .str text
    | none => .bytes []

def readparam (nodecodeinput : Bool) (input : Bytes) : ParamRead :=
  match Lines.cut (byte '\n') input with
  | (_, none) => .waiting
  | (s, some rest) =>
      if s = [] then .param [] (.bytes []) rest
      else
        match Lines.fields whitespace s with
        | [name, size] =>
            -- the name is decoded as ASCII
            if name.all (· < 128) then
              match pyInt size with
              | none => .died
              | some paramsize =>
                  if paramsize.toNat ≤ rest.length then
                    .param (name.rdropWhile colon)
                      (decodeParam nodecodeinput (rest.take paramsize.toNat))
                      (rest.drop paramsize.toNat)
                  else .waiting
            else .died
        | _ => .died

inductive MessageRead
  | waiting
  | died
  | message (params : Params) (rest : Bytes)

/-- The loop of `mainloop` over the parameters, of which it takes at most so many. -/
def readParams (nodecodeinput : Bool) : Nat → Bytes → Params → MessageRead
  | 0, input, params => .message params input
  | n + 1, input, params =>
      match readparam nodecodeinput input with
      | .waiting => .waiting
      | .died => .died
      | .param name data rest =>
          if name = [] then .message params rest
          else readParams nodecodeinput n rest (VarMap.set params name data)

/-- What the processor does with its parameters. -/
inductive Processed
  | raised (err : String)
  | fields (outfields : Params)

/-- The results which `processmessage` sends. -/
def outfields : Processed → Params
  | .raised err => [(bytes "cmdtalkstatus", .str "1"), (bytes "cmdtalkerrstr", .str err)]
  | .fields outfields => outfields

def senditem (nm : Bytes) (data : PyData) : Bytes :=
  header nm (makebytes data).length ++ makebytes data

def answer (outfields : Params) : Bytes :=
  outfields.flatMap (fun field => senditem field.1 field.2) ++ [byte '\n']

theorem length_readparam {nodecodeinput : Bool} {input name rest : Bytes} {data : PyData}
    (read : readparam nodecodeinput input = .param name data rest) : rest.length < input.length := by
  unfold readparam at read
  split at read
  · cases read
  · rename_i line behind cut
    have shorter := Lines.length_cut cut
    split at read
    · cases read
      exact shorter
    · split at read
      · split at read
        · split at read
          · cases read
          · split at read
            · cases read
              rw [List.length_drop]
              omega
            · cases read
        · cases read
      · cases read

theorem length_readParams {nodecodeinput : Bool} {n : Nat} {input rest : Bytes} {params last : Params}
    (read : readParams nodecodeinput n input params = .message last rest) :
    rest.length + (min n 1) ≤ input.length := by
  induction n generalizing input params with
  | zero =>
      cases read
      omega
  | succ n ih =>
      unfold readParams at read
      split at read
      · cases read
      · cases read
      · rename_i name data behind found
        have shorter := length_readparam found
        split at read
        · cases read
          omega
        · have later := ih read
          omega

/-- Both ends of the pipes. -/
structure CmdTalk where
  /-- What the process has not read yet. -/
  toCmd : Bytes := []
  /-- The parameters which the processor has been called with, in order. -/
  received : List Params := []
  fromCmd : NetconData := {}
  running : Bool := true
  /-- A `talk` waits for an answer which does not come. -/
  waiting : Bool := false
deriving DecidableEq

section

variable (process : List Params → Processed) (nodecodeinput : Bool)

/-- The loop of `mainloop`, as far as what has been sent takes it. The processor may depend on
all the messages it has been given. -/
def mainloop (s : CmdTalk) : CmdTalk :=
  match _read : readParams nodecodeinput 10 s.toCmd [] with
  | .waiting => s
  | .died => { s with running := false, fromCmd := { s.fromCmd with eof := true } }
  | .message params rest =>
      let received := s.received ++ [params]
      mainloop { s with
        toCmd := rest
        received := received
        fromCmd := { s.fromCmd with
          fd := s.fromCmd.fd ++ answer (outfields (process received)) } }
termination_by s.toCmd.length
decreasing_by
  have shorter := length_readParams _read
  omega

/-- The arguments of a `talk`, and how the reads cut the answer. -/
structure Call where
  arg0 : Bytes × Bytes := ([], [])
  args : Message := []
  sizes : List Nat := []
deriving DecidableEq

/-- The map which is sent. -/
def Call.sent (call : Call) : Message :=
  if call.arg0.1 = [] then call.args else call.arg0 :: call.args

def Call.request (call : Call) : Bytes :=
  call.sent.flatMap (fun entry => element entry.1 entry.2) ++ [byte '\n']

inductive Reply
  | waiting
  | failed
  | done (status : Bool) (rep : Message)
deriving DecidableEq

/-- `CmdTalk::talk` for an empty `rep`. `ExecCmd::send` returns an `int`. -/
def talk (s : CmdTalk) (call : Call) : CmdTalk × Reply :=
  if s.waiting then (s, .waiting)
  else if s.running = false then (s, .failed)
  else if 2 ^ 31 ≤ call.request.length then ({ s with running := false }, .failed)
  else
    let s := mainloop process nodecodeinput { s with
      toCmd := s.toCmd ++ call.request
      fromCmd := { s.fromCmd with sizes := call.sizes } }
    match readAnswer s.fromCmd [] with
    | .waiting => ({ s with waiting := true }, .waiting)
    | .failed => ({ s with running := false }, .failed)
    | .done rep con =>
        ({ s with fromCmd := con }, .done (VarMap.find rep (bytes "cmdtalkstatus")).isNone rep)

end

end Upmpdcli.Cmdtalk
