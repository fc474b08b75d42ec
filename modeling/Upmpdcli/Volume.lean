import Upmpdcli.Lib.Machine
import Upmpdcli.OHService
import Upmpdcli.UpMpd

set_option autoImplicit false

/- The two services which control the volume, OpenHome Volume and UPnP AV
RenderingControl. The arguments of an action are as `SoapIncoming::get` gives them. -/
namespace Upmpdcli

/-- How a volume action ends: its result, what the device returned to it, which it does
not look at, and the `Volume` it notifies. -/
structure VolumeReply where
  code : UpnpCode
  done : Bool := false
  notified : Option Int := none
deriving DecidableEq

namespace OHVolume

def makestate (w : World) : StateMap :=
  let volume := UpMpd.getvolume w
  [("VolumeMax", "100"), ("VolumeLimit", "100"), ("VolumeUnity", "100"), ("VolumeSteps", "100"),
    ("VolumeMilliDbPerStep", "500"), ("Balance", "0"), ("BalanceMax", "0"), ("Fade", "0"),
    ("FadeMax", "0"), ("Volume", toString volume), ("Mute", flag (volume = 0))]

/-- The end of the actions which set the volume. -/
def setAndNotify (w : World) (volume : Int) (env : CmdEnv) : VolumeReply × World :=
  let (done, w) := UpMpd.setvolume w volume env
  ({ code := .success, done := done, notified := some (UpMpd.getvolume w) }, w)

def setVolume (w : World) (value : Option Int) (env : CmdEnv) : VolumeReply × World :=
  match value with
  | none => ({ code := .invalidParam }, w)
  | some volume => setAndNotify w volume env

def setMute (w : World) (value : Option Bool) (env : CmdEnv) : VolumeReply × World :=
  match value with
  | none => ({ code := .invalidParam }, w)
  | some mute =>
      let (done, w) := UpMpd.setmute w mute env
      ({ code := .success, done := done }, w)

def volumeInc (w : World) (env : CmdEnv) : VolumeReply × World :=
  let newvol := UpMpd.getvolume w + 1
  setAndNotify w (if newvol > 100 then 100 else newvol) env

def volumeDec (w : World) (env : CmdEnv) : VolumeReply × World :=
  let newvol := UpMpd.getvolume w - 1
  setAndNotify w (if newvol < 0 then 0 else newvol) env

def mute (w : World) : String := flag (UpMpd.getvolume w = 0)

end OHVolume

namespace RenderingControl

def rdstateMToU (w : World) : StateMap :=
  let volume := UpMpd.getvolume w
  let volume := if volume < 0 then 0 else volume
  [("Volume", toString volume), ("Mute", flag (volume = 0))]

/-- Every action refuses another channel than `Master`. -/
def onMaster {α : Type} (channel : Option String) (refused : α) (action : α) : α :=
  if channel = some "Master" then action else refused

def setMute (w : World) (channel desired : Option String) (env : CmdEnv) : VolumeReply × World :=
  onMaster channel ({ code := .invalidParam }, w) <|
    match desired with
    | none => ({ code := .invalidParam }, w)
    | some desired =>
        let first := desired.toList.head?
        if first = some 'F' ∨ first = some '0' then
          let (done, w) := UpMpd.setmute w false env
          ({ code := .success, done := done }, w)
        else if first = some 'T' ∨ first = some '1' then
          let (done, w) := UpMpd.setmute w true env
          ({ code := .success, done := done }, w)
        else ({ code := .invalidParam }, w)

def getMute (w : World) (channel : Option String) : UpnpCode × Option String :=
  onMaster channel (.invalidParam, none) (.success, some (flag (UpMpd.getvolume w = 0)))

def setVolume (w : World) (channel desired : Option String) (env : CmdEnv) :
    VolumeReply × World :=
  onMaster channel ({ code := .invalidParam }, w) <|
    match desired with
    | none => ({ code := .invalidParam }, w)
    | some desired =>
        let volume := Smallut.atoi desired
        if volume < 0 ∨ volume > 100 then ({ code := .invalidParam }, w)
        else
          let (done, w) := UpMpd.setvolume w volume env
          ({ code := .success, done := done }, w)

def getVolume (w : World) (channel : Option String) : UpnpCode × Option String :=
  onMaster channel (.invalidParam, none) (.success, some (toString (UpMpd.getvolume w)))

def selectPreset (w : World) (presetnm : Option String) (env : CmdEnv) : VolumeReply × World :=
  if presetnm = some "FactoryDefaults" then
    let (done, w) := UpMpd.setvolume w 50 env
    ({ code := .success, done := done }, w)
  else ({ code := .invalidParam }, w)

end RenderingControl

inductive VolumeAct
  | ohSetVolume (value : Option Int) (env : CmdEnv)
  | ohSetMute (value : Option Bool) (env : CmdEnv)
  | ohVolumeInc (env : CmdEnv)
  | ohVolumeDec (env : CmdEnv)
  | rcSetVolume (channel desired : Option String) (env : CmdEnv)
  | rcSetMute (channel desired : Option String) (env : CmdEnv)
  | rcSelectPreset (presetnm : Option String) (env : CmdEnv)
  | updStatus (env : StatusEnv)

/-- What a client asks for, whichever service it asks. -/
inductive VolumeDemand
  | volume (value : Int)
  | mute (onoff : Bool)
  | inc
  | dec
deriving DecidableEq

/-- The part of the device in it. -/
def VolumeDemand.execute (w : World) (env : CmdEnv) : VolumeDemand → Bool × World
  | .volume value => UpMpd.setvolume w value env
  | .mute onoff => UpMpd.setmute w onoff env
  | .inc =>
      let newvol := UpMpd.getvolume w + 1
      UpMpd.setvolume w (if newvol > 100 then 100 else newvol) env
  | .dec =>
      let newvol := UpMpd.getvolume w - 1
      UpMpd.setvolume w (if newvol < 0 then 0 else newvol) env

namespace VolumeAct

def perform (w : World) : VolumeAct → VolumeReply × World
  | .ohSetVolume value env => OHVolume.setVolume w value env
  | .ohSetMute value env => OHVolume.setMute w value env
  | .ohVolumeInc env => OHVolume.volumeInc w env
  | .ohVolumeDec env => OHVolume.volumeDec w env
  | .rcSetVolume channel desired env => RenderingControl.setVolume w channel desired env
  | .rcSetMute channel desired env => RenderingControl.setMute w channel desired env
  | .rcSelectPreset presetnm env => RenderingControl.selectPreset w presetnm env
  | .updStatus env =>
      let (w, done) := Upmpdcli.updStatus w env
      ({ code := .success, done := done }, w)

def step (w : World) (action : VolumeAct) : Option (World × VolumeReply) :=
  let (reply, w) := action.perform w
  some (w, reply)

def demand : VolumeAct → Option VolumeDemand
  | .ohSetVolume value _ => value.map .volume
  | .ohSetMute value _ => value.map .mute
  | .ohVolumeInc _ => some .inc
  | .ohVolumeDec _ => some .dec
  | .rcSetVolume _ desired _ => desired.map fun desired => .volume (Smallut.atoi desired)
  | .rcSetMute _ desired _ =>
      desired.map fun desired =>
        let first := desired.toList.head?
        .mute (first = some 'T' ∨ first = some '1')
  | .rcSelectPreset _ _ => some (.volume 50)
  | .updStatus _ => none

/-- What happens to the `setvol` command of the action. -/
def env : VolumeAct → CmdEnv
  | .ohSetVolume _ env | .ohSetMute _ env | .ohVolumeInc env | .ohVolumeDec env
  | .rcSetVolume _ _ env | .rcSetMute _ _ env | .rcSelectPreset _ env => env
  | .updStatus _ => {}

end VolumeAct

/-- Both services report this mute state, in answers and in events. -/
structure ReportsMute (w : World) (muted : Bool) : Prop where
  ohAction : OHVolume.mute w = flag muted
  ohEvent : (OHVolume.makestate w).lookup "Mute" = some (flag muted)
  rcAction : RenderingControl.getMute w (some "Master") = (.success, some (flag muted))
  rcEvent : (RenderingControl.rdstateMToU w).lookup "Mute" = some (flag muted)

instance (w : World) (muted : Bool) : Decidable (ReportsMute w muted) :=
  decidable_of_iff
    ((OHVolume.mute w = flag muted ∧
        (OHVolume.makestate w).lookup "Mute" = some (flag muted)) ∧
      RenderingControl.getMute w (some "Master") = (.success, some (flag muted)) ∧
        (RenderingControl.rdstateMToU w).lookup "Mute" = some (flag muted))
    ⟨fun ⟨⟨a, b⟩, c, d⟩ => ⟨a, b, c, d⟩, fun ⟨a, b, c, d⟩ => ⟨⟨a, b⟩, c, d⟩⟩

end Upmpdcli
