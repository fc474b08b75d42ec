import Upmpdcli.MpdCliState
import Upmpdcli.UpMpd

set_option autoImplicit false

namespace Upmpdcli

/-- One channel. Scripts tell what a radio without a uri plays. -/
structure RadioMeta where
  title : String := ""
  uri : String := ""
  metaScript : List String := []
  currentAudioUri : String := ""
  nextMetaScriptExecTime : Int := 0
deriving DecidableEq

/-- The radio service with its channels, of which the first one is for `SetChannel`. -/
structure OHRadio where
  o_radios : List RadioMeta := [{ title := "Unknown radio" }]
  m_active : Bool := false
  m_playpending : Bool := false
  m_mpdsavedstate : MpdState := {}
  m_id : Nat := 0
deriving DecidableEq

/-- What happens to the commands of `setActive`. -/
structure RadioSwitchEnv where
  save : SaveEnv := {}
  clear : CmdEnv := {}
  stop : CmdEnv := {}
  restore : RestoreEnv := {}
deriving DecidableEq

/-- What happens in `setPlaying`: the line which the playlist parser writes, if it can be
started and writes one, and the commands to MPD. -/
structure RadioPlayEnv where
  audiourl : Option String := none
  clear : CmdEnv := {}
  insert : InsertEnv := {}
  single : CmdEnv := {}
  play : PlayEnv := {}
deriving DecidableEq

namespace OHRadio

def iStop (rd : OHRadio) (w : World) (env : CmdEnv) : UpnpCode × OHRadio × World :=
  let (ok, w) := MpdCli.stop w env
  (if ok then .success else .internalError, { rd with m_playpending := false }, w)

def pause (rd : OHRadio) (w : World) (env : CmdEnv) : UpnpCode × OHRadio × World :=
  let (ok, w) := MpdCli.pause w true env
  (if ok then .success else .internalError, { rd with m_playpending := false }, w)

/-- `setActive`, without the event it sends. -/
def setActive (rd : OHRadio) (w : World) (onoff : Bool) (env : RadioSwitchEnv) :
    OHRadio × World :=
  let rd := { rd with m_active := onoff }
  if rd.m_active then
    -- the state is only restored if it was saved
    if rd.m_id ≠ 0 ∧ rd.m_mpdsavedstate.status.state ≠ .unk then
      (rd, (MpdCli.restoreState w rd.m_mpdsavedstate env.restore).2)
    else (rd, w)
  else
    let (_, saved, w) := MpdCli.saveState w rd.m_mpdsavedstate (-1) env.save
    let rd := { rd with m_mpdsavedstate := saved }
    let (_, w) := MpdCli.clearQueue w env.clear
    let (_, rd, w) := rd.iStop w env.stop
    (rd, w)

def setPlaying (rd : OHRadio) (w : World) (env : RadioPlayEnv) : UpnpCode × OHRadio × World :=
  match rd.o_radios[rd.m_id]? with
  | none => (.internalError, rd, w)
  | some radio =>
      let radio := { radio with nextMetaScriptExecTime := 0 }
      let rd := { rd with o_radios := rd.o_radios.set rd.m_id radio }
      if radio.uri = "" ∧ radio.metaScript = [] then (.invalidParam, rd, w)
      else if radio.uri = "" then
        -- the metadata script will tell the uri, in a computation of the state
        let radio := { radio with currentAudioUri := "" }
        let rd := { rd with o_radios := rd.o_radios.set rd.m_id radio, m_playpending := true }
        (.success, rd, (MpdCli.clearQueue w env.clear).2)
      else
        let audiourl := Smallut.trimstring (env.audiourl.getD "") "\r\n"
        if audiourl = "" then (.internalError, rd, w)
        else
          let (_, w) := MpdCli.clearQueue w env.clear
          let song : UpSong := { album := radio.title, rsrc := { uri := radio.uri } }
          match MpdCli.insert w audiourl 0 song env.insert with
          | (id, w) =>
              if id < 0 then (.internalError, rd, w)
              else
                let (_, w) := MpdCli.single w true env.single
                let (ok, w) := MpdCli.play w 0 env.play
                (if ok then .success else .internalError, rd, w)

def iPlay (rd : OHRadio) (w : World) (env : RadioPlayEnv) : UpnpCode × OHRadio × World :=
  rd.setPlaying w env

/-- `setChannel`. `ups` is what the metadata says, as far as it can be parsed. -/
def setChannel (rd : OHRadio) (w : World) (args : Option (String × UpSong)) (env : CmdEnv) :
    UpnpCode × OHRadio × World :=
  match args with
  | none => (.internalError, rd, w)
  | some (uri, ups) =>
      let (_, rd, w) := rd.iStop w env
      let renamed (radio : RadioMeta) : RadioMeta :=
        { radio with uri := uri, title := ups.album ++ " " ++ ups.title }
      (.success, { rd with m_id := 0, o_radios := rd.o_radios.modify 0 renamed }, w)

def setId (rd : OHRadio) (w : World) (id : Option Int) (env : CmdEnv) :
    UpnpCode × OHRadio × World :=
  match id with
  | none => (.internalError, rd, w)
  | some id =>
      if id ≤ 0 ∨ id > rd.o_radios.length then (.internalError, rd, w)
      else
        let (_, rd, w) := rd.iStop w env
        (.success, { rd with m_id := id.toNat }, w)

/-- Only `setActive` changes whether the service is active. -/
theorem active_setActive (rd : OHRadio) (w : World) (onoff : Bool) (env : RadioSwitchEnv) :
    (rd.setActive w onoff env).1.m_active = onoff := by
  unfold setActive
  cases onoff with
  | true =>
      rw [if_pos rfl]
      split <;> rfl
  | false => rfl

theorem active_setPlaying (rd : OHRadio) (w : World) (env : RadioPlayEnv) :
    (rd.setPlaying w env).2.1.m_active = rd.m_active := by
  unfold setPlaying
  split
  · rfl
  · dsimp only
    split
    · rfl
    · split
      · rfl
      · split
        · rfl
        · split <;> rfl

theorem active_setChannel (rd : OHRadio) (w : World) (args : Option (String × UpSong))
    (env : CmdEnv) : (rd.setChannel w args env).2.1.m_active = rd.m_active := by
  unfold setChannel
  split <;> rfl

theorem active_setId (rd : OHRadio) (w : World) (id : Option Int) (env : CmdEnv) :
    (rd.setId w id env).2.1.m_active = rd.m_active := by
  unfold setId
  split
  · rfl
  · split <;> rfl

end OHRadio

end Upmpdcli
