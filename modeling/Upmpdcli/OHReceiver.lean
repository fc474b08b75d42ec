import Upmpdcli.UpMpd

set_option autoImplicit false

namespace Upmpdcli

/-- `OHReceiverParams::PlayMethod`. -/
inductive PlayMethod
  | mpd
  | alsa
deriving DecidableEq

/-- The receiver service. `m_cmd` tells if it has a receiving process. -/
structure OHReceiver where
  m_pm : PlayMethod := .mpd
  m_uri : String := ""
  m_metadata : String := ""
  m_active : Bool := false
  m_cmd : Bool := false
deriving DecidableEq

/-- What happens in `iPlay`: whether the process can be started and MPD can be made to play
what it receives. In the MPD play method the service sends commands to MPD, and `play` and
`stop` are what they and the other clients make of it. -/
structure ReceiverEnv where
  ok : Bool := true
  play : Option World := none
  stop : Option World := none
deriving DecidableEq

namespace OHReceiver

/-- The commands to MPD, of which there are none in the ALSA play method. -/
def sendMpd (rcv : OHReceiver) (w : World) (after : Option World) : World :=
  match rcv.m_pm with
  | .mpd => after.getD w
  | .alsa => w

def iStop (rcv : OHReceiver) (w : World) (stop : Option World) : OHReceiver × World :=
  ({ rcv with m_cmd := false }, rcv.sendMpd w stop)

def setActive (rcv : OHReceiver) (w : World) (onoff : Bool) (stop : Option World) :
    OHReceiver × World :=
  let rcv := { rcv with m_active := onoff }
  if rcv.m_active then (rcv, w) else rcv.iStop w stop

def iPlay (rcv : OHReceiver) (w : World) (env : ReceiverEnv) : Bool × OHReceiver × World :=
  if rcv.m_uri = "" ∨ rcv.m_metadata = "" then (false, rcv, w)
  else
    let w := rcv.sendMpd w env.play
    if env.ok then (true, { rcv with m_cmd := true }, w)
    else
      let (rcv, w) := rcv.iStop w env.stop
      (false, rcv, w)

/-- A new sender first stops the receiver. -/
def iSetSender (rcv : OHReceiver) (w : World) (uri metadata : String) (stop : Option World) :
    OHReceiver × World :=
  if rcv.m_uri ≠ uri ∨ rcv.m_metadata ≠ metadata then
    let (rcv, w) := if rcv.m_cmd then rcv.iStop w stop else (rcv, w)
    ({ rcv with m_uri := uri, m_metadata := metadata }, w)
  else (rcv, w)

/-- Only `setActive` changes whether the service is active. -/
@[simp] theorem active_iStop (rcv : OHReceiver) (w : World) (stop : Option World) :
    (rcv.iStop w stop).1.m_active = rcv.m_active := rfl

@[simp] theorem active_setActive (rcv : OHReceiver) (w : World) (onoff : Bool)
    (stop : Option World) : (rcv.setActive w onoff stop).1.m_active = onoff := by
  cases onoff with
  | true => rfl
  | false => rfl

@[simp] theorem active_iPlay (rcv : OHReceiver) (w : World) (env : ReceiverEnv) :
    (rcv.iPlay w env).2.1.m_active = rcv.m_active := by
  unfold iPlay
  split
  · rfl
  · dsimp only
    split <;> rfl

@[simp] theorem active_iSetSender (rcv : OHReceiver) (w : World) (uri metadata : String)
    (stop : Option World) : (rcv.iSetSender w uri metadata stop).1.m_active = rcv.m_active := by
  unfold iSetSender
  split
  · dsimp only
    split <;> rfl
  · rfl

end OHReceiver

end Upmpdcli
