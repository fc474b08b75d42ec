import Upmpdcli.OHSourcesCoherent

set_option autoImplicit false

/- The Info service, what the radio service tells it, and the changes of the source. -/
namespace Upmpdcli

/-- What MPD says of the audio, which only this service reads. -/
structure AudioDetails where
  kbrate : Nat := 0
  bitdepth : Nat := 0
  sample_rate : Nat := 0
deriving DecidableEq

structure OHInfo where
  m_metadata : String := ""
  m_metatext : String := ""
  m_metatextcnt : Nat := 0
  m_state : StateMap := []
  m_meta_text_into_data : Bool := false
deriving DecidableEq

/-- What the two services call. `uMetaToUpSong` takes the first item of DIDL data. -/
structure InfoHelp extends SourceHelp where
  uMetaToUpSong : String → Option UpSong

namespace OHInfo

/-- What `setMetadata` keeps of the data and the text. -/
def overriding (info : OHInfo) (metadata metatext : String) : String :=
  if info.m_meta_text_into_data ∧ metatext ≠ "" then metatext else metadata

def setMetadata (info : OHInfo) (metadata metatext : String) : OHInfo :=
  let info := { info with m_metadata := info.overriding metadata metatext }
  if metatext ≠ info.m_metatext then
    { info with m_metatext := metatext, m_metatextcnt := info.m_metatextcnt + 1 }
  else info

def resetMetadata (info : OHInfo) : OHInfo :=
  { info with m_metatext := "", m_metadata := "", m_metatextcnt := info.m_metatextcnt + 1 }

def isSong (mpds : MpdStatus) : Bool := mpds.state = .play ∨ mpds.state = .pause

variable (help : InfoHelp)

def urimetadata (info : OHInfo) (mpds : MpdStatus) (ohpl : OHPlaylist) : String × String :=
  if info.m_metadata ≠ "" then ("", info.m_metadata)
  else if isSong mpds then
    let uri := mpds.currentsong.rsrc.uri
    match ohpl.cacheFind uri with
    | some metadata => (uri, metadata)
    | none => (uri, UpSong.didlmake help.toPlaylistHelp.soap mpds.currentsong)
  else ("", "")

/-- The action `Track`. -/
def track (info : OHInfo) (mpds : MpdStatus) (ohpl : OHPlaylist) : List (String × String) :=
  let (uri, metadata) := info.urimetadata help mpds ohpl
  [("Uri", uri), ("Metadata", metadata)]

/-- The duration, the bit rate, the bit depth and the sample rate. -/
def makedetails (mpds : MpdStatus) (audio : AudioDetails) : String × String × String × String :=
  if isSong mpds then
    (toString (mpds.songlenms / 1000), toString (audio.kbrate * 1000), toString audio.bitdepth,
      toString audio.sample_rate)
  else ("0", "0", "0", "0")

def makestate (info : OHInfo) (mpds : MpdStatus) (ohpl : OHPlaylist) (audio : AudioDetails) :
    StateMap :=
  let (uri, metadata) := info.urimetadata help mpds ohpl
  let (duration, bitrate, bitdepth, samplerate) := makedetails mpds audio
  [("TrackCount", toString mpds.trackcounter), ("DetailsCount", toString mpds.detailscounter),
    ("MetatextCount", toString info.m_metatextcnt), ("Uri", uri), ("Metadata", metadata),
    ("Metatext", info.m_metatext), ("Duration", duration), ("BitRate", bitrate),
    ("BitDepth", bitdepth), ("SampleRate", samplerate), ("Lossless", "0"), ("CodecName", "")]

end OHInfo

/-- The fields of a channel which only the state of the radio service needs. -/
structure RadioData where
  artUri : String := ""
  artScript : List String := []
  preferScript : Bool := true
  dynArtUri : String := ""
  dynTitle : String := ""
  dynArtist : String := ""
deriving DecidableEq

/-- The fields of all the channels, and the song which the art has been looked for. -/
structure RadioDetails where
  channels : List RadioData := []
  m_currentsong : String := ""
deriving DecidableEq

/-- What happens in a computation of the state of the radio: the title, the artist and the art
which the metadata script tells, when it is time for it and it works, and what the art script
prints. -/
structure RadioStateEnv where
  metascript : Option (String × String × String) := none
  artscript : Option String := none
deriving DecidableEq

namespace OHProduct

theorem sources_pos (cfg : SourceConfig) : 0 < (sources cfg).length := Nat.zero_lt_succ _

theorem sindex_lt {cfg : SourceConfig} {sindex : Int}
    (known : ¬ (sindex < 0 ∨ sindex ≥ (sources cfg).length)) :
    sindex.toNat < (sources cfg).length := by
  omega

end OHProduct

namespace OHRadio

variable (help : InfoHelp)

def metaForId (radio : RadioMeta) (data : RadioData) : String :=
  let uri := if radio.uri = "" then "http://www.bogus.com/bogus.mp3" else radio.uri
  UpSong.didlmake help.toPlaylistHelp.soap
    { title := radio.title, rsrc := { uri }, artUri := data.artUri }

def makeIdArray (rd : OHRadio) : String :=
  help.toPlaylistHelp.base64_encode <|
    (List.range' 1 (rd.o_radios.length - 1)).flatMap fun val =>
      [UInt8.ofNat (val / 2 ^ 24), UInt8.ofNat (val / 2 ^ 16), UInt8.ofNat (val / 2 ^ 8),
        UInt8.ofNat val]

/-- The song as the scripts and the channel complete what MPD says, and what is then known of
the channel. -/
def dynamic (rd : OHRadio) (radio : RadioMeta) (data : RadioData) (m_currentsong : String)
    (mpds : MpdStatus) (env : RadioStateEnv) : UpSong × RadioData × String :=
  let song := mpds.currentsong
  let song := if song.album = "" then { song with album := radio.title } else song
  let nompddata : Bool := song.title = "" ∧ song.artist = ""
  let scripted : Bool :=
    (rd.m_playpending ∨ mpds.state = .play) ∧ (data.preferScript ∨ nompddata) ∧
      radio.metaScript ≠ []
  let data :=
    ((if scripted then env.metascript else none).map fun told =>
      { data with dynTitle := told.1, dynArtist := told.2.1, dynArtUri := told.2.2 }).getD data
  let song := if scripted then { song with title := data.dynTitle, artist := data.dynArtist } else song
  let song := if song.title = "" then { song with title := radio.title } else song
  let nsong := song.title ++ song.artist
  let lookFor : Bool := data.artScript ≠ [] ∧ nsong ≠ m_currentsong
  let data :=
    if lookFor then { data with dynArtUri := Smallut.trimstring (env.artscript.getD "") " \t\r\n" }
    else data
  let artUri := if data.dynArtUri = "" then data.artUri else data.dynArtUri
  ({ song with artUri }, data, if lookFor then nsong else m_currentsong)

/-- What is told to the Info service: the data of the channel, and the song while it plays. -/
def tellInfo (metadata : String) (song : UpSong) (mpds : MpdStatus) : String × String :=
  if mpds.state ≠ .play then (metadata, "")
  else
    let metatext := song.didlmake help.toPlaylistHelp.soap true
    match help.uMetaToUpSong metadata with
    | some temp =>
        if song.artUri ≠ "" then
          (UpSong.didlmake help.toPlaylistHelp.soap { temp with artUri := song.artUri } true,
            metatext)
        else (metadata, metatext)
    | none => (metadata, metatext)

/-- `makestate`, with what it is going to tell the Info service. -/
def makestate (rd : OHRadio) (details : RadioDetails) (mpds : MpdStatus) (env : RadioStateEnv) :
    StateMap × RadioDetails × Option (String × String) :=
  let st (transport metadata uri : String) : StateMap :=
    [("ChannelsMax", toString rd.o_radios.length), ("Id", toString rd.m_id),
      ("IdArray", rd.makeIdArray help), ("ProtocolInfo", help.toPlaylistHelp.protocolinfo),
      ("TransportState", transport), ("Metadata", metadata), ("Uri", uri)]
  let transport := mpdstatusToTransportState mpds.state
  if rd.m_active then
    match rd.o_radios[rd.m_id]? with
    | none => (st transport "" "", details, none)
    | some radio =>
        let data := details.channels.getD rd.m_id {}
        let metadata := metaForId help radio data
        let uri := if radio.uri = "" then radio.currentAudioUri else radio.uri
        let (song, data, m_currentsong) :=
          rd.dynamic radio data details.m_currentsong mpds env
        (st transport metadata uri,
          { channels := details.channels.set rd.m_id data, m_currentsong },
          some (tellInfo help metadata song mpds))
  else (st "Stopped" "" "", details, none)

end OHRadio

/-- How far a change of the source has come: it has reset the metadata, left the old source, or
activated the new one. -/
inductive SwitchStage
  | reset
  | left
  | arrived
deriving DecidableEq

/-- A change of the source under way. -/
structure Switching (cfg : SourceConfig) where
  sindex : Fin (OHProduct.sources cfg).length
  stage : SwitchStage
deriving DecidableEq

/-- The device with its Info service. `making` is what a computation of the state of the radio,
which has found it active, is going to tell the Info service. -/
structure InfoSystem (cfg : SourceConfig) where
  dev : Device cfg := {}
  details : RadioDetails := {}
  audio : AudioDetails := {}
  info : OHInfo := {}
  making : Option (String × String) := none
  switching : Option (Switching cfg) := none
deriving DecidableEq

namespace InfoSystem

variable {cfg : SourceConfig}

/-- The steps of a change of the source, of an event in the radio and the Info services, and
whatever else happens to the device. The lock of the state of the radio keeps two computations
of it apart. -/
inductive Action (cfg : SourceConfig)
  | switch (sindex : Int)
  | leave (env : SwitchEnv)
  | arrive (env : SwitchEnv)
  | finish
  | makeRadio (env : RadioStateEnv)
  | tellInfo
  | makeInfo
  | change (dev : Device cfg) (details : RadioDetails) (audio : AudioDetails)

/-- `ohinfotexttodata` is an option of the configuration. -/
def initial (cfg : SourceConfig) (ohinfotexttodata : Bool) : InfoSystem cfg :=
  { dev := { m_sourceIndex := ⟨0, OHProduct.sources_pos cfg⟩ }
    info := { m_meta_text_into_data := ohinfotexttodata } }

def mpds (s : InfoSystem cfg) : MpdStatus := s.dev.world.cli.m_stat

section Model

variable (help : InfoHelp)

/-- The first part of `iSetSourceIndex`. -/
def switch (s : InfoSystem cfg) (sindex : Int) : InfoSystem cfg :=
  if bad : sindex < 0 ∨ sindex ≥ (OHProduct.sources cfg).length then s
  else
    let sindex : Fin (OHProduct.sources cfg).length := ⟨sindex.toNat, OHProduct.sindex_lt bad⟩
    if s.dev.m_sourceIndex = sindex then s
    else { s with info := s.info.resetMetadata, switching := some ⟨sindex, .reset⟩ }

/-- Failing to stop the sender ends the change. -/
def leave (s : InfoSystem cfg) (sindex : Fin (OHProduct.sources cfg).length) (env : SwitchEnv) :
    InfoSystem cfg :=
  match OHProduct.deactivate help.toSourceHelp s.dev env with
  | (false, dev) => { s with dev, switching := none }
  | (true, dev) => { s with dev, switching := some ⟨sindex, .left⟩ }

/-- The event which the radio sends when it becomes active is one of those which may happen at
any time. -/
def arrive (s : InfoSystem cfg) (sindex : Fin (OHProduct.sources cfg).length) (env : SwitchEnv) :
    InfoSystem cfg :=
  let (_, dev) := OHProduct.activate help.toSourceHelp s.dev ((OHProduct.sources cfg).get sindex) env
  { s with dev, switching := some ⟨sindex, .arrived⟩ }

def finish (s : InfoSystem cfg) (sindex : Fin (OHProduct.sources cfg).length) : InfoSystem cfg :=
  { s with
    dev := { s.dev with
      m_sourceIndex := sindex, savedsrc := some ((OHProduct.sources cfg).get sindex).name }
    switching := none }

def makeRadio (s : InfoSystem cfg) (env : RadioStateEnv) : InfoSystem cfg :=
  let (_, details, told) := s.dev.ohrd.makestate help s.details s.mpds env
  { s with details, making := told }

def makeInfo (s : InfoSystem cfg) : InfoSystem cfg :=
  { s with info := { s.info with m_state := s.info.makestate help s.mpds s.dev.ohpl s.audio } }

def step (s : InfoSystem cfg) : Action cfg → Option (InfoSystem cfg × Unit)
  | .switch sindex => if s.switching = none then some (s.switch sindex, ()) else none
  | .leave env =>
      match s.switching with
      | some ⟨sindex, .reset⟩ => some (s.leave help sindex env, ())
      | _ => none
  | .arrive env =>
      match s.switching with
      | some ⟨sindex, .left⟩ => some (s.arrive help sindex env, ())
      | _ => none
  | .finish =>
      match s.switching with
      | some ⟨sindex, .arrived⟩ => some (s.finish sindex, ())
      | _ => none
  | .makeRadio env => if s.making = none then some (s.makeRadio help env, ()) else none
  | .tellInfo =>
      match s.making with
      | some (metadata, metatext) =>
          some ({ s with info := s.info.setMetadata metadata metatext, making := none }, ())
      | none => none
  | .makeInfo => some (s.makeInfo help, ())
  | .change dev details audio =>
      if dev.ohrd.m_active = s.dev.ohrd.m_active ∧ dev.m_sourceIndex = s.dev.m_sourceIndex then
        some ({ s with dev, details, audio }, ())
      else none

/-- The uri and the metadata of the song which MPD plays. -/
def playing (s : InfoSystem cfg) : String × String :=
  if OHInfo.isSong s.mpds then
    (s.mpds.currentsong.rsrc.uri,
      (s.dev.ohpl.cacheFind s.mpds.currentsong.rsrc.uri).getD
        (UpSong.didlmake help.toPlaylistHelp.soap s.mpds.currentsong))
  else ("", "")

/-- Nothing overrides the song: the action `Track` and the variables which an event would tell
are about it. -/
structure Describes (s : InfoSystem cfg) : Prop where
  override : s.info.m_metadata = ""
  track : s.info.track help s.mpds s.dev.ohpl =
    [("Uri", (s.playing help).1), ("Metadata", (s.playing help).2)]
  uri : (s.info.makestate help s.mpds s.dev.ohpl s.audio).lookup "Uri" = some (s.playing help).1
  metadata : (s.info.makestate help s.mpds s.dev.ohpl s.audio).lookup "Metadata" =
    some (s.playing help).2

end Model

/-- The radio is not active, or the source which has been chosen is another one. -/
def NotRadio (s : InfoSystem cfg) : Prop :=
  s.dev.ohrd.m_active = false ∨
    s.switching = none ∧ OHProduct.service s.dev.source ≠ some .radio

instance (s : InfoSystem cfg) : Decidable s.NotRadio := inferInstanceAs (Decidable (_ ∨ _ ∧ _))

/-- No external source has the name of one of the radio, and the Info service is only given an
override while the radio is active and no change has reset the metadata on its way to leave it. -/
def Safe (s : InfoSystem cfg) (action : Action cfg) (_ : InfoSystem cfg) (_ : Unit) : Prop :=
  match action with
  | .switch sindex =>
      ∀ source ∈ (OHProduct.sources cfg)[sindex.toNat]?,
        OHProduct.selects cfg source.name = some .radio →
          OHProduct.service source = some .radio
  | .tellInfo =>
      ∀ told ∈ s.making, s.info.overriding told.1 told.2 ≠ "" →
        s.dev.ohrd.m_active = true ∧ s.switching.map Switching.stage ≠ some .reset
  | _ => True

instance (s : InfoSystem cfg) (action : Action cfg) (t : InfoSystem cfg) (out : Unit) :
    Decidable (Safe s action t out) :=
  match action with
  | .switch sindex =>
      inferInstanceAs (Decidable (∀ source ∈ (OHProduct.sources cfg)[sindex.toNat]?, _ → _))
  | .tellInfo => inferInstanceAs (Decidable (∀ told ∈ s.making, _ → _))
  | .leave _ | .arrive _ | .finish | .makeRadio _ | .makeInfo | .change _ _ _ => .isTrue trivial

/-- The count of the texts goes up with each new text. -/
def Counts (s : InfoSystem cfg) (_ : Action cfg) (t : InfoSystem cfg) (_ : Unit) : Prop :=
  t.info.m_metatext ≠ s.info.m_metatext → s.info.m_metatextcnt < t.info.m_metatextcnt

end InfoSystem

end Upmpdcli
