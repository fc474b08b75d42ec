import Upmpdcli.MpdCliState
import Upmpdcli.OHReceiver

set_option autoImplicit false

/- The sender: it makes the local source, or an external one, a Songcast source which the
local receiver plays. -/
namespace Upmpdcli

/-- Which client of MPD the device uses. -/
inductive MpdPtr
  | main
  | aux
deriving DecidableEq

/-- The MPD of the device, the auxiliary one which the sender may start, and which of them
the services are using. -/
structure Mpds where
  main : World := {}
  aux : Option World := none
  m_mpdcli : MpdPtr := .main
deriving DecidableEq

namespace Mpds

def get (mpds : Mpds) : MpdPtr → World
  | .main => mpds.main
  | .aux => mpds.aux.getD {}

def put (mpds : Mpds) (w : World) : MpdPtr → Mpds
  | .main => { mpds with main := w }
  | .aux => { mpds with aux := mpds.aux.map fun _ => w }

/-- `getmpdcli`. -/
def world (mpds : Mpds) : World := mpds.get mpds.m_mpdcli

def setWorld (mpds : Mpds) (w : World) : Mpds := mpds.put w mpds.m_mpdcli

end Mpds

/-- `SenderReceiver`. `m->mpd` is the auxiliary MPD. -/
structure SenderReceiver where
  isender : Bool := false
  ssender : Bool := false
  iuri : String := ""
  imeta : String := ""
  origmpd : Option MpdPtr := none
deriving DecidableEq

/-- What happens in `start`: what the sender process writes, the auxiliary MPD if there is
a connection to it, the receiver, and the commands to the two MPDs. -/
structure StartEnv where
  stop : CmdEnv := {}
  output : Option String := none
  aux : Option World := none
  setSender : Option World := none
  play : ReceiverEnv := {}
  clear : Option World := none
  save : SaveEnv := {}
  restore : RestoreEnv := {}
  volume : CmdEnv := {}
deriving DecidableEq

structure StopEnv where
  receiver : Option World := none
  save : SaveEnv := {}
  restore : RestoreEnv := {}
  stop : CmdEnv := {}
deriving DecidableEq

namespace SenderReceiver

/-- What `start` and `stop` work on. -/
structure Sending where
  snd : SenderReceiver
  rcv : OHReceiver
  mpds : Mpds
deriving DecidableEq

def copyMpd (mpds : Mpds) (src dest : MpdPtr) (seekms : Int) (save : SaveEnv)
    (restore : RestoreEnv) : Bool × Mpds :=
  if mpds.aux = none ∧ (src = .aux ∨ dest = .aux) then (false, mpds)
  else
    match MpdCli.saveState (mpds.get src) {} seekms save with
    | (false, _, w) => (false, mpds.put w src)
    | (true, st, w) =>
        let mpds := mpds.put w src
        let (restored, w) := MpdCli.restoreState (mpds.get dest) st restore
        (restored, mpds.put w dest)

def clear (s : Sending) (stop : Option World) : Sending :=
  let mpds := { s.mpds with m_mpdcli := s.snd.origmpd.getD s.mpds.m_mpdcli }
  let (rcv, w) := s.rcv.iStop mpds.world stop
  { snd := { s.snd with isender := false, ssender := false, origmpd := none }
    rcv := rcv
    mpds := { mpds.setWorld w with aux := none } }

/-- The line from the script: `Ok mpdport URI base64-encoded-uri METADATA b64-meta`. -/
def parseOutput (base64_decode : String → String) (output : String) : Option (String × String) :=
  match Smallut.stringToTokens output with
  | ["Ok", _, _, uri, _, meta_] => some (base64_decode uri, base64_decode meta_)
  | _ => none

/-- The end of `start` with an internal source: the auxiliary MPD takes over. -/
def switchMpd (scalestream : Bool) (s : Sending) (seekms : Int) (env : StartEnv) : Sending :=
  let orig := s.mpds.m_mpdcli
  let (_, mpds) := copyMpd s.mpds orig .aux seekms env.save env.restore
  let mpds := { mpds with m_mpdcli := .aux }
  let mpds :=
    if scalestream then
      mpds.put (MpdCli.setVolume (mpds.get orig) 100 false env.volume).2 orig
    else mpds
  { s with snd := { s.snd with origmpd := some orig }, mpds := mpds }

/-- The processes after the beginning of `start`. An empty `script` stands for the internal
source, whose process is started unless there is one. -/
def startSender (snd : SenderReceiver) (script : String) : SenderReceiver :=
  if script = "" then { snd with isender := true } else { snd with ssender := true }

/-- The end of `start`: our own receiver plays what the sender sends. -/
def startReceiver (scalestream : Bool) (s : Sending) (script : String) (seekms : Int)
    (uri metadata : String) (env : StartEnv) : Bool × Sending :=
  let (rcv, w) := s.rcv.iSetSender s.mpds.world uri metadata env.setSender
  let (playing, rcv, w) := rcv.iPlay w env.play
  let s := { s with rcv := rcv, mpds := s.mpds.setWorld w }
  if playing then
    if script = "" then (true, switchMpd scalestream s seekms env)
    else (true, { s with snd := { s.snd with origmpd := none } })
  else (false, clear s env.clear)

/-- `start`, without the transfer of the event subscriptions. -/
def start (base64_decode : String → String) (ohrcv scalestream : Bool) (s : Sending)
    (script : String) (seekms : Int) (env : StartEnv) : Bool × Sending :=
  match ohrcv with
  | false => (false, s)
  | true =>
      let (_, w) := MpdCli.stop s.mpds.world env.stop
      let sndcmd : Bool := script ≠ "" || !s.snd.isender
      let s := { s with snd := s.snd.startSender script, mpds := s.mpds.setWorld w }
      let details :=
        if sndcmd then env.output.bind (parseOutput base64_decode)
        else some (s.snd.iuri, s.snd.imeta)
      match details with
      | none => (false, clear s env.clear)
      | some (uri, metadata) =>
          let s := { s with
            snd := if script = "" then { s.snd with iuri := uri, imeta := metadata } else s.snd
            mpds := if sndcmd ∧ script = "" then { s.mpds with aux := env.aux } else s.mpds }
          if sndcmd ∧ script = "" ∧ env.aux = none then (false, clear s env.clear)
          else startReceiver scalestream s script seekms uri metadata env

/-- `stop`, which needs the receiver service. -/
def stop (ohrcv : Bool) (s : Sending) (env : StopEnv) : Bool × Sending :=
  match ohrcv with
  | false => (false, s)
  | true =>
      let (rcv, w) := s.rcv.iStop s.mpds.world env.receiver
      let mpds := s.mpds.setWorld w
      let mpds :=
        match s.snd.origmpd, mpds.aux with
        | some orig, some _ =>
            let (_, mpds) := copyMpd mpds .aux orig (-1) env.save env.restore
            let mpds := mpds.put (MpdCli.stop (mpds.get .aux) env.stop).2 .aux
            { mpds with m_mpdcli := orig }
        | _, _ => mpds
      let origmpd := if mpds.aux.isSome then none else s.snd.origmpd
      (true, {
        snd := { s.snd with isender := false, ssender := false, origmpd := origmpd }
        rcv := rcv
        mpds := { mpds with aux := none } })

/-- Neither changes whether the receiver service is the active source. -/
@[simp] theorem active_clear (s : Sending) (stop : Option World) :
    (clear s stop).rcv.m_active = s.rcv.m_active := rfl

@[simp] theorem active_switchMpd (scalestream : Bool) (s : Sending) (seekms : Int)
    (env : StartEnv) : (switchMpd scalestream s seekms env).rcv = s.rcv := rfl

theorem active_startReceiver (scalestream : Bool) (s : Sending) (script : String)
    (seekms : Int) (uri metadata : String) (env : StartEnv) :
    (startReceiver scalestream s script seekms uri metadata env).2.rcv.m_active =
      s.rcv.m_active := by
  unfold startReceiver
  dsimp only
  split
  · split
    · simp
    · simp
  · simp

theorem active_start (base64_decode : String → String) (ohrcv scalestream : Bool) (s : Sending)
    (script : String) (seekms : Int) (env : StartEnv) :
    (start base64_decode ohrcv scalestream s script seekms env).2.rcv.m_active =
      s.rcv.m_active := by
  unfold start
  split
  · rfl
  · dsimp only
    split
    · rfl
    · split
      · rfl
      · rw [active_startReceiver]

theorem active_stop (ohrcv : Bool) (s : Sending) (env : StopEnv) :
    (stop ohrcv s env).2.rcv.m_active = s.rcv.m_active := by
  unfold stop
  split
  · rfl
  · rfl

end SenderReceiver

end Upmpdcli
