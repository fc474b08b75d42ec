import Upmpdcli.Lib.Machine
import Upmpdcli.OHProduct

set_option autoImplicit false

/- The actions of the source services, which may change the source too, and what holds the
services together. -/
namespace Upmpdcli

/-- What happens in an action of the playlist service. -/
structure PlaylistCallEnv where
  switch : SwitchEnv := {}
  queue : ListEnv := {}
  consume : CmdEnv := {}
  single : CmdEnv := {}
  play : PlayEnv := {}
  stop : CmdEnv := {}
  delete : CmdEnv := {}
  insert : InsertAfterEnv := {}
deriving DecidableEq

/-- The actions of the playlist service which make it the source. Arguments may be missing. -/
inductive PlaylistCall
  | play
  | seekId (id : Option Int)
  | seekIndex (pos : Option Int)
  | insert (args : Option (Int × String × String))
  | deleteId (id : Option Int)
  | deleteAll

structure RadioCallEnv where
  switch : SwitchEnv := {}
  cmd : CmdEnv := {}
  play : RadioPlayEnv := {}
deriving DecidableEq

inductive RadioCall
  | play
  | pause
  | stop
  | setChannel (args : Option (String × UpSong))
  | setId (id : Option Int)

structure ReceiverCallEnv where
  switch : SwitchEnv := {}
  stop : Option World := none
  play : ReceiverEnv := {}
deriving DecidableEq

inductive ReceiverCall
  | play
  | stop
  | setSender (args : Option (String × String))

namespace Device

variable {cfg : SourceConfig} (help : SourceHelp) (dev : Device cfg)

def result (ok : Bool) : UpnpCode := if ok then .success else .internalError

section Playlist

def wakePlaylist (env : SwitchEnv) : Device cfg :=
  if dev.ohpl.m_active then dev
  else (OHProduct.iSetSourceIndexByName help dev OHProduct.OHPlaylistSource.name env).2

/-- The ids of an inactive playlist are those of its saved queue. -/
def wakeWithId (id : Int) (env : PlaylistCallEnv) : Option Int × Device cfg :=
  if dev.ohpl.m_active then (some id, dev)
  else
    let dev := dev.wakePlaylist help env.switch
    let (id, w) := dev.ohpl.idFromOldId dev.world id env.queue
    (if id < 0 then none else some id, dev.setWorld w)

def playModes (env : PlaylistCallEnv) : World :=
  let w := if cfg.keepconsume then dev.world else (MpdCli.consume dev.world false env.consume).2
  (MpdCli.single w false env.single).2

def play (env : PlaylistCallEnv) : UpnpCode × Device cfg :=
  let dev := dev.wakePlaylist help env.switch
  let (ok, w) := MpdCli.play (dev.playModes env) (-1) env.play
  (if ok then .success else .actionFailed, dev.setWorld w)

def seekId (id : Option Int) (env : PlaylistCallEnv) : UpnpCode × Device cfg :=
  match id with
  | none => (.invalidParam, dev)
  | some id =>
      match dev.wakeWithId help id env with
      | (none, dev) => (.internalError, dev)
      | (some id, dev) =>
          let (ok, w) := MpdCli.playId (dev.playModes env) id env.play
          (result ok, dev.setWorld w)

def seekIndex (pos : Option Int) (env : PlaylistCallEnv) : UpnpCode × Device cfg :=
  let dev := dev.wakePlaylist help env.switch
  match pos with
  | none => (.internalError, dev)
  | some pos =>
      let (ok, w) := MpdCli.play (dev.playModes env) pos env.play
      (result ok, dev.setWorld w)

def insertUri (afterid : Int) (uri metadata : String) (nocheck : Bool) (env : PlaylistCallEnv) :
    UpnpCode × Device cfg :=
  if dev.ohpl.m_active then
    let (id, ohpl, w) :=
      dev.ohpl.insertUri help.toPlaylistHelp dev.world afterid uri metadata nocheck
        { insert := env.insert }
    (result id.isSome, { dev.setWorld w with ohpl := ohpl })
  else (.internalError, dev.wakePlaylist help env.switch)

def insert (args : Option (Int × String × String)) (env : PlaylistCallEnv) :
    UpnpCode × Device cfg :=
  match args with
  | none => (.invalidParam, dev)
  | some (afterid, uri, metadata) =>
      match help.toPlaylistHelp.morphSpecialUrl uri with
      | none => (.invalidParam, dev)
      | some (uri, forcenocheck) =>
          match dev.wakeWithId help afterid env with
          | (none, dev) => (.internalError, dev)
          | (some afterid, dev) => dev.insertUri help afterid uri metadata forcenocheck env

/-- MPD would skip to the next track if the current one is deleted. -/
def deleteId (id : Option Int) (env : PlaylistCallEnv) : UpnpCode × Device cfg :=
  match id with
  | none => (.invalidParam, dev)
  | some id =>
      match dev.wakeWithId help id env with
      | (none, dev) => (.internalError, dev)
      | (some id, dev) =>
          let w :=
            if dev.world.cli.m_stat.songid = id then (MpdCli.stop dev.world env.stop).2
            else dev.world
          let (ok, w) := MpdCli.deleteId w id env.delete
          (result ok, dev.setWorld w)

def deleteAll (env : PlaylistCallEnv) : UpnpCode × Device cfg :=
  let dev := dev.wakePlaylist help env.switch
  let (ok, w) := MpdCli.clearQueue dev.world env.delete
  (result ok, dev.setWorld w)

def callPlaylist (env : PlaylistCallEnv) : PlaylistCall → UpnpCode × Device cfg
  | .play => dev.play help env
  | .seekId id => dev.seekId help id env
  | .seekIndex pos => dev.seekIndex help pos env
  | .insert args => dev.insert help args env
  | .deleteId id => dev.deleteId help id env
  | .deleteAll => dev.deleteAll help env

end Playlist

section Radio

def wakeRadio (env : SwitchEnv) : Device cfg :=
  if dev.ohrd.m_active then dev
  else (OHProduct.iSetSourceIndexByName help dev OHProduct.OHRadioSource.name env).2

def setOHRadio (result : UpnpCode × OHRadio × World) : UpnpCode × Device cfg :=
  (result.1, { dev.setWorld result.2.2 with ohrd := result.2.1 })

def callRadio (env : RadioCallEnv) : RadioCall → UpnpCode × Device cfg
  | .play =>
      let dev := dev.wakeRadio help env.switch
      dev.setOHRadio (dev.ohrd.iPlay dev.world env.play)
  | .pause => dev.setOHRadio (dev.ohrd.pause dev.world env.cmd)
  | .stop => dev.setOHRadio (dev.ohrd.iStop dev.world env.cmd)
  | .setChannel args => dev.setOHRadio (dev.ohrd.setChannel dev.world args env.cmd)
  | .setId id => dev.setOHRadio (dev.ohrd.setId dev.world id env.cmd)

end Radio

section Receiver

def wakeReceiver (env : SwitchEnv) : Device cfg :=
  if dev.ohrcv.m_active then dev
  else (OHProduct.iSetSourceIndexByName help dev OHProduct.OHReceiverSource.name env).2

def setOHReceiver (result : OHReceiver × World) : Device cfg :=
  { dev.setWorld result.2 with ohrcv := result.1 }

/-- Stopping the receiver always makes the playlist the source again. -/
def callReceiver (env : ReceiverCallEnv) : ReceiverCall → UpnpCode × Device cfg
  | .play =>
      let dev := dev.wakeReceiver help env.switch
      let (ok, played) := dev.ohrcv.iPlay dev.world env.play
      (result ok, dev.setOHReceiver played)
  | .stop =>
      let dev := dev.setOHReceiver (dev.ohrcv.iStop dev.world env.stop)
      (.success,
        (OHProduct.iSetSourceIndexByName help dev OHProduct.OHPlaylistSource.name env.switch).2)
  | .setSender none => (.internalError, dev)
  | .setSender (some (uri, metadata)) =>
      (.success, dev.setOHReceiver (dev.ohrcv.iSetSender dev.world uri metadata env.stop))

end Receiver

end Device

/-- What can happen to the device: the actions of the product service and of the source
services, and whatever happens to an MPD and its client. -/
inductive SourceAct
  | setSourceIndex (value : Option Int) (env : SwitchEnv)
  | setSourceIndexByName (value : Option String) (env : SwitchEnv)
  | playlist (call : PlaylistCall) (env : PlaylistCallEnv)
  | radio (call : RadioCall) (env : RadioCallEnv)
  | receiver (call : ReceiverCall) (env : ReceiverCallEnv)
  | mpd (which : MpdPtr) (w : World)

/-- The services whose activity depends on the source. -/
inductive SourceService
  | playlist
  | radio
  | receiver
deriving DecidableEq

namespace OHProduct

/-- The service which a source stands for. There is none for a script. -/
def service (source : Source) : Option SourceService :=
  if source = OHPlaylistSource ∨ source = SndRcvPLSource then some .playlist
  else if source = OHRadioSource ∨ source = SndRcvRDSource then some .radio
  else if source = OHReceiverSource then some .receiver
  else none

/-- The service which `activate` finds by the name of the source. -/
def selects (cfg : SourceConfig) (name : String) : Option SourceService :=
  if name = OHPlaylistSource.name then some .playlist
  else if cfg.ohrcv ∧ name = OHReceiverSource.name then some .receiver
  else if cfg.ohrd ∧ name = OHRadioSource.name then some .radio
  else if cfg.sndrcv ∧ name = SndRcvPLName then some .playlist
  else if cfg.ohrd ∧ cfg.sndrcv ∧ name = SndRcvRDName then some .radio
  else none

/-- The name of the source selects the service it stands for, and it is not the radio for
the sender. -/
def Regular (cfg : SourceConfig) (source : Source) : Prop :=
  selects cfg source.name = service source ∧ source ≠ SndRcvRDSource

instance (cfg : SourceConfig) (source : Source) : Decidable (Regular cfg source) :=
  inferInstanceAs (Decidable (_ ∧ _))

end OHProduct

namespace Device

variable {cfg : SourceConfig} (help : SourceHelp)

def step (dev : Device cfg) : SourceAct → Option (Device cfg × UpnpCode)
  | .setSourceIndex value env => some (OHProduct.setSourceIndex help dev value env).swap
  | .setSourceIndexByName value env =>
      some (OHProduct.setSourceIndexByName help dev value env).swap
  | .playlist call env => some (dev.callPlaylist help env call).swap
  | .radio call env => if cfg.ohrd then some (dev.callRadio help env call).swap else none
  | .receiver call env => if cfg.ohrcv then some (dev.callReceiver help env call).swap else none
  | .mpd which w => some ({ dev with mpds := dev.mpds.put w which }, .success)

/-- The active services, and the flag of the radio. -/
structure Shows (dev : Device cfg) (service : Option SourceService) (playing : Bool) : Prop where
  playlist : dev.ohpl.m_active = decide (service = some .playlist)
  radio : dev.ohrd.m_active = decide (service = some .radio)
  receiver : dev.ohrcv.m_active = decide (service = some .receiver)
  radioPlaying : dev.m_radioplaying = playing

/-- Exactly the service of the current source is active, and the flag tells if it is the
radio. -/
def Coherent (dev : Device cfg) : Prop :=
  dev.Shows (OHProduct.service dev.source) dev.ohrd.m_active

/-- The source which an action asks for. -/
def asked (cfg : SourceConfig) : SourceAct → Option Source
  | .setSourceIndex (some sindex) _ =>
      if sindex < 0 then none else (OHProduct.sources cfg)[sindex.toNat]?
  | .setSourceIndexByName (some name) _ =>
      (OHProduct.sources cfg).find? fun source => source.name = name
  | _ => none

/-- The condition on each step. -/
def Safe (_ : Device cfg) (action : SourceAct) (_ : Device cfg) (_ : UpnpCode) : Prop :=
  ∀ source ∈ asked cfg action, OHProduct.Regular cfg source

end Device

end Upmpdcli
