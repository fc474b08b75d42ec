import Upmpdcli.OHPlaylist
import Upmpdcli.OHRadio
import Upmpdcli.OHSndrcv

set_option autoImplicit false

/- The product service, which chooses the source, and the services it chooses from. -/
namespace Upmpdcli

/-- An entry of `o_sources`. -/
structure Source where
  type : String
  name : String
deriving DecidableEq

/-- Which services there are, and what the directory of scripts holds, with whether each
file can be executed. -/
structure SourceConfig where
  ohrd : Bool := true
  ohrcv : Bool := false
  playMethod : PlayMethod := .mpd
  sndrcv : Bool := false
  noSongcastSource : Bool := false
  keepconsume : Bool := false
  scalestream : Bool := true
  scripts_dir : String := "/usr/share/upmpdcli/src_scripts"
  scripts : List (String × Bool) := []
deriving DecidableEq

/-- What the services call besides what the playlist does. -/
structure SourceHelp where
  toPlaylistHelp : PlaylistHelp
  base64_decode : String → String

namespace OHProduct

def OHPlaylistSource : Source := ⟨"Playlist", "Playlist"⟩
def OHRadioSource : Source := ⟨"Radio", "Radio"⟩
def OHReceiverSource : Source := ⟨"Receiver", "Songcast"⟩

def SndRcvPLName : String := "PL-to-Songcast"
def SndRcvRDName : String := "RD-to-Songcast"
def SndRcvPLSource : Source := ⟨"Playlist", SndRcvPLName⟩
def SndRcvRDSource : Source := ⟨"Radio", SndRcvRDName⟩

/-- The source which a file in the directory of scripts stands for. Names of scripts are
like `Type-Name`. -/
def scriptSource (tpnm : String) (executable : Bool) : Option Source :=
  let chars := tpnm.toList
  if chars = [] ∨ chars.head? = some '.' ∨ '-' ∉ chars then none
  else
    let tp := String.ofList (chars.takeWhile (· ≠ '-'))
    let nm := String.ofList ((chars.dropWhile (· ≠ '-')).drop 1)
    if tp ∈ ["Analog", "Digital", "Hdmi"] ∧ executable then some ⟨tp, nm⟩ else none

def listScripts (scripts : List (String × Bool)) : List Source :=
  scripts.filterMap fun (tpnm, executable) => scriptSource tpnm executable

/-- The sources between the local MPD and the Songcast sender. -/
def senderSources (cfg : SourceConfig) : List Source :=
  if cfg.noSongcastSource then []
  else SndRcvPLSource :: if cfg.ohrd then [SndRcvRDSource] else []

/-- `o_sources`, as the constructor fills it. -/
def sources (cfg : SourceConfig) : List Source :=
  OHPlaylistSource :: ((if cfg.ohrd then [OHRadioSource] else []) ++
    if cfg.ohrcv then
      OHReceiverSource ::
        if cfg.sndrcv ∧ cfg.playMethod = .alsa then senderSources cfg ++ listScripts cfg.scripts
        else []
    else [])

end OHProduct

/-- The product service with the source services, the MPDs they use, and the flag which
tells that the radio plays. -/
structure Device (cfg : SourceConfig) where
  ohpl : OHPlaylist := {}
  ohrd : OHRadio := {}
  ohrcv : OHReceiver := {}
  sndrcv : SenderReceiver := {}
  mpds : Mpds := {}
  m_radioplaying : Bool := false
  m_sourceIndex : Fin (OHProduct.sources cfg).length := ⟨0, Nat.zero_lt_succ _⟩
  savedsrc : Option String := none
deriving DecidableEq

/-- What happens in a change of the source. -/
structure SwitchEnv where
  leave : LeaveEnv := {}
  comeBack : ComeBackEnv := {}
  radioOff : RadioSwitchEnv := {}
  radioOn : RadioSwitchEnv := {}
  receiver : Option World := none
  stop : StopEnv := {}
  start : StartEnv := {}
deriving DecidableEq

namespace Device

variable {cfg : SourceConfig} (help : SourceHelp) (dev : Device cfg)

def world : World := dev.mpds.world

def setWorld (w : World) : Device cfg := { dev with mpds := dev.mpds.setWorld w }

/-- The source which `m_sourceIndex` stands for. -/
def source : Source := (OHProduct.sources cfg).get dev.m_sourceIndex

def setPlaylistActive (onoff : Bool) (env : SwitchEnv) : Device cfg :=
  let (ohpl, w) :=
    if onoff then dev.ohpl.comeBack dev.world env.comeBack
    else dev.ohpl.leave help.toPlaylistHelp dev.world env.leave
  { dev with ohpl := ohpl, mpds := dev.mpds.setWorld w }

def setRadioActive (onoff : Bool) (env : RadioSwitchEnv) : Device cfg :=
  let (ohrd, w) := dev.ohrd.setActive dev.world onoff env
  { dev with ohrd := ohrd, mpds := dev.mpds.setWorld w }

def setRadio (on : Bool) : Device cfg := { dev with m_radioplaying := on }

def setReceiverActive (onoff : Bool) (env : SwitchEnv) : Device cfg :=
  let (ohrcv, w) := dev.ohrcv.setActive dev.world onoff env.receiver
  { dev with ohrcv := ohrcv, mpds := dev.mpds.setWorld w }

def sending : SenderReceiver.Sending := ⟨dev.sndrcv, dev.ohrcv, dev.mpds⟩

def setSending (s : SenderReceiver.Sending) : Device cfg :=
  { dev with sndrcv := s.snd, ohrcv := s.rcv, mpds := s.mpds }

def startSender (script : String) (seekms : Int) (env : SwitchEnv) : Bool × Device cfg :=
  let (ok, s) :=
    SenderReceiver.start help.base64_decode cfg.ohrcv cfg.scalestream dev.sending script seekms
      env.start
  (ok, dev.setSending s)

def stopSender (env : SwitchEnv) : Bool × Device cfg :=
  let (ok, s) := SenderReceiver.stop cfg.ohrcv dev.sending env.stop
  (ok, dev.setSending s)

end Device

namespace OHProduct

variable {cfg : SourceConfig} (help : SourceHelp)

/-- The first half of `iSetSourceIndex`, which leaves the current source. External sources
are managed by scripts. -/
def deactivate (dev : Device cfg) (env : SwitchEnv) : Bool × Device cfg :=
  let cur := dev.source
  if cur = OHPlaylistSource then (true, dev.setPlaylistActive help false env)
  else if cfg.ohrcv ∧ cur = OHReceiverSource then (true, dev.setReceiverActive false env)
  else if cfg.ohrd ∧ cur = OHRadioSource then
    (true, (dev.setRadio false).setRadioActive false env.radioOff)
  else if cfg.sndrcv ∧ cur = SndRcvPLSource then
    (dev.setPlaylistActive help false env).stopSender env
  else if cfg.sndrcv ∧ cfg.ohrd ∧ cur = SndRcvRDSource then
    ((dev.setRadio false).setRadioActive false env.radioOff).stopSender env
  else dev.stopSender env

/-- The second half, which activates the new source. It looks at the name only. -/
def activate (dev : Device cfg) (new : Source) (env : SwitchEnv) : Bool × Device cfg :=
  if new.name = OHPlaylistSource.name then (true, dev.setPlaylistActive help true env)
  else if cfg.ohrcv ∧ new.name = OHReceiverSource.name then (true, dev.setReceiverActive true env)
  else if cfg.ohrd ∧ new.name = OHRadioSource.name then
    (true, (dev.setRadio true).setRadioActive true env.radioOn)
  else if cfg.sndrcv ∧ new.name = SndRcvPLName then
    let (ok, dev) := dev.startSender help "" 0 env
    (ok, dev.setPlaylistActive help true env)
  else if cfg.ohrd ∧ cfg.sndrcv ∧ new.name = SndRcvRDName then
    let (ok, dev) := dev.startSender help "" 0 env
    (ok, dev.setRadioActive true env.radioOn)
  else dev.startSender help (path_cat cfg.scripts_dir (new.type ++ "-" ++ new.name)) 0 env

/-- `iSetSourceIndex` with an index in the range. Failing to stop the sender ends it half
way, and failing to start it does not. -/
def setSource (dev : Device cfg) (sindex : Fin (sources cfg).length) (env : SwitchEnv) :
    UpnpCode × Device cfg :=
  if dev.m_sourceIndex = sindex then (.success, dev)
  else
    match deactivate help dev env with
    | (false, dev) => (.internalError, dev)
    | (true, dev) =>
        let new := (sources cfg).get sindex
        let (ok, dev) := activate help dev new env
        (if ok then .success else .internalError,
          { dev with m_sourceIndex := sindex, savedsrc := some new.name })

def iSetSourceIndex (dev : Device cfg) (sindex : Int) (env : SwitchEnv) :
    UpnpCode × Device cfg :=
  if bad : sindex < 0 ∨ sindex ≥ (sources cfg).length then (.invalidParam, dev)
  else setSource help dev ⟨sindex.toNat, by omega⟩ env

def iSrcNameToIndex (cfg : SourceConfig) (nm : String) : Option (Fin (sources cfg).length) :=
  (sources cfg).findFinIdx? fun source => source.name = nm

def iSetSourceIndexByName (dev : Device cfg) (name : String) (env : SwitchEnv) :
    UpnpCode × Device cfg :=
  match iSrcNameToIndex cfg name with
  | some sindex => setSource help dev sindex env
  | none => (.invalidParam, dev)

/-- The actions `SetSourceIndex`, and `SetSourceIndexByName` or `SetSourceBySystemName`. -/
def setSourceIndex (dev : Device cfg) (value : Option Int) (env : SwitchEnv) :
    UpnpCode × Device cfg :=
  match value with
  | none => (.invalidParam, dev)
  | some sindex => iSetSourceIndex help dev sindex env

def setSourceIndexByName (dev : Device cfg) (value : Option String) (env : SwitchEnv) :
    UpnpCode × Device cfg :=
  match value with
  | none => (.invalidParam, dev)
  | some name => iSetSourceIndexByName help dev name env

end OHProduct

end Upmpdcli
