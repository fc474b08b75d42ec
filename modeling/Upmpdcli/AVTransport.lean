import Mathlib.Data.List.Sort
import Upmpdcli.OHPlaylist

set_option autoImplicit false

namespace Upmpdcli

/-- The options which the service looks at. -/
structure AvtOptions where
  ownQueue : Bool := false
  autoplay : Bool := false
  keepconsume : Bool := false
deriving DecidableEq

/-- `m_songids` is an ordered set. -/
structure AVTransport where
  m_uri : String := ""
  m_curMetadata : String := ""
  m_nextUri : String := ""
  m_nextMetadata : String := ""
  m_songids : List Int := []
deriving DecidableEq

/-- What happens to the queries and commands of `setAVTransportURI`. `songs` is how many of
the songs behind the current one MPD tells before a query fails, if one does, and `clean`
whether each of the old ids can be looked up, and what becomes of its deletion. -/
structure SetUriEnv where
  clear : CmdEnv := {}
  rept : CmdEnv := {}
  random : CmdEnv := {}
  single : CmdEnv := {}
  consume : CmdEnv := {}
  songs : Option Nat := none
  trim : CmdEnv := {}
  insert : InsertEnv := {}
  play : PlayEnv := {}
  pause : CmdEnv := {}
  stop : CmdEnv := {}
  clean : List (Bool × CmdEnv) := []
deriving DecidableEq

namespace AVTransport

variable (help : PlaylistHelp)

def mpdsToPlaymode (mpds : MpdStatus) : String :=
  match mpds.rept, mpds.random, mpds.single with
  | false, true, false => "SHUFFLE"
  | true, false, true => "REPEAT_ONE"
  | true, false, false => "REPEAT_ALL"
  | true, true, false => "RANDOM"
  | false, false, true => "DIRECT_1"
  | _, _, _ => "NORMAL"

def mpdsToTActions (mpds : MpdStatus) : String :=
  "Next,Previous," ++
    match mpds.state with
    | .play => "Pause,Stop,Seek"
    | .pause => "Play,Stop,Seek"
    | .unk | .stop => "Play"

def mpdsToTState (mpds : MpdStatus) : String :=
  match mpds.state with
  | .play => "PLAYING"
  | .pause => "PAUSED_PLAYBACK"
  | .unk | .stop => "STOPPED"

def isSong (mpds : MpdStatus) : Bool := mpds.state = .play ∨ mpds.state = .pause

/-- The first part of `tpstateMToU`: what MPD does to the current and next tracks.
`ohcache` is the metadata cache of the playlist service, if there is one. -/
def followMpd (avt : AVTransport) (mpds : MpdStatus) (radioPlaying : Bool)
    (ohcache : Option (List (String × String))) : AVTransport :=
  let uri := mpds.currentsong.rsrc.uri
  if radioPlaying ∨ Smallut.contains avt.m_curMetadata UpSong.origMpd then
    { avt with m_curMetadata := UpSong.didlmake help.soap mpds.currentsong }
  else if uri ≠ "" ∧ uri = avt.m_nextUri then
    { avt with
      m_uri := avt.m_nextUri
      m_curMetadata := avt.m_nextMetadata
      m_nextUri := ""
      m_nextMetadata := "" }
  else if uri ≠ "" ∧ uri ≠ avt.m_uri then
    -- somebody else controls MPD, perhaps our own playlist
    let metadata :=
      match ohcache.bind (·.lookup uri) with
      | some metadata => metadata
      | none => if isSong mpds then UpSong.didlmake help.soap mpds.currentsong else ""
    { avt with m_nextMetadata := "", m_nextUri := "", m_uri := uri, m_curMetadata := metadata }
  else avt

def tpstateMToU (opts : AvtOptions) (avt : AVTransport) (mpds : MpdStatus) (ok radioPlaying : Bool)
    (ohcache : Option (List (String × String))) : StateMap × AVTransport :=
  let avt := avt.followMpd help mpds radioPlaying ohcache
  let medium := if Smallut.beginswith avt.m_uri "http://" then "HDD" else "NETWORK"
  let duration (ms : Nat) (none : String) : String :=
    if isSong mpds then help.soap.upnpduration ms else none
  let nextMetadata :=
    if opts.ownQueue then avt.m_nextMetadata
    else if isSong mpds then UpSong.didlmake help.soap mpds.nextsong
    else ""
  ([("TransportState", mpdsToTState mpds), ("CurrentTransportActions", mpdsToTActions mpds),
    ("TransportStatus", if ok then "OK" else "ERROR_OCCURRED"), ("TransportPlaySpeed", "1"),
    ("CurrentTrack", "1"), ("NumberOfTracks", "1"),
    ("CurrentMediaDuration", duration mpds.songlenms "00:00:00"),
    ("CurrentTrackDuration", duration mpds.songlenms "00:00:00"),
    ("CurrentTrackURI", avt.m_uri), ("AVTransportURI", avt.m_uri),
    ("AVTransportURIMetaData", avt.m_curMetadata), ("CurrentTrackMetaData", avt.m_curMetadata),
    ("RelativeTimePosition", duration mpds.songelapsedms "0:00:00"),
    ("AbsoluteTimePosition", duration mpds.songelapsedms "0:00:00"),
    ("NextAVTransportURI", avt.m_nextUri), ("NextAVTransportURIMetaData", nextMetadata),
    ("PlaybackStorageMedium", if isSong mpds then medium else "NONE"),
    ("PossiblePlaybackStorageMedia", "HDD,NETWORK"),
    ("RecordStorageMedium", "NOT_IMPLEMENTED"), ("RelativeCounterPosition", "0"),
    ("AbsoluteCounterPosition", "0"), ("CurrentPlayMode", mpdsToPlaymode mpds),
    ("PossibleRecordStorageMedia", "NOT_IMPLEMENTED"),
    ("RecordMediumWriteStatus", "NOT_IMPLEMENTED"),
    ("CurrentRecordQualityMode", "NOT_IMPLEMENTED"),
    ("PossibleRecordQualityModes", "NOT_IMPLEMENTED")], avt)

def resetModes (opts : AvtOptions) (w : World) (env : SetUriEnv) : World :=
  let (_, w) := MpdCli.repeat_ w false env.rept
  let (_, w) := MpdCli.random w false env.random
  let (_, w) := MpdCli.single w false env.single
  if opts.keepconsume then w else (MpdCli.consume w false env.consume).2

/-- With its own queue, the service keeps no other song behind the current one. -/
def trimQueue (w : World) (curpos : Nat) (env : SetUriEnv) : World :=
  let behind := w.mpd.queue.songs.length - (curpos + 1)
  let told := (env.songs.map fun songs => min songs behind).getD behind
  if told > 0 then (MpdCli.deletePosRange w (curpos + 1) (curpos + 1 + told) env.trim).2 else w

/-- The new current track is played, paused or stopped as the old one was. -/
def startTrack (opts : AvtOptions) (w : World) (st : PlayState) (curpos : Nat) (env : SetUriEnv) :
    World :=
  if opts.autoplay then (MpdCli.play w curpos env.play).2
  else
    match st with
    | .play => (MpdCli.play w curpos env.play).2
    | .pause => (MpdCli.pause w true env.pause).2
    | .stop => (MpdCli.stop w env.stop).2
    | .unk => w

/-- Delete the old ids which are still in the queue. -/
def cleanSongids (w : World) : List Int → List (Bool × CmdEnv) → World
  | id :: ids, (answered, env) :: envs =>
      cleanSongids (if MpdCli.statId w id answered then (MpdCli.deleteId w id env).2 else w) ids envs
  | _, _ => w

def addSongid (songids : List Int) (id : Int) : List Int :=
  if id ∈ songids then songids else songids.orderedInsert (· ≤ ·) id

/-- The part of `setAVTransportURI` which has a uri, metadata and a place for them. -/
def insertTrack (opts : AvtOptions) (avt : AVTransport) (w : World) (setnext : Bool)
    (uri metadata : String) (metaformpd : UpSong) (st : PlayState) (curpos : Nat)
    (env : SetUriEnv) : UpnpCode × AVTransport × World :=
  match MpdCli.insert w uri (if setnext then curpos + 1 else curpos) metaformpd env.insert with
  | (songid, w) =>
      if songid < 0 then (.internalError, avt, w)
      else
        let (avt, w) :=
          if setnext then ({ avt with m_nextUri := uri, m_nextMetadata := metadata }, w)
          else
            let avt :=
              { avt with
                m_uri := uri, m_curMetadata := metadata, m_nextUri := "", m_nextMetadata := "" }
            let w := startTrack opts w st curpos env
            if opts.ownQueue then (avt, w)
            else ({ avt with m_songids := [] }, cleanSongids w avt.m_songids env.clean)
        let avt :=
          if opts.ownQueue then avt else { avt with m_songids := addSongid avt.m_songids songid }
        (.success, avt, w)

/-- `setAVTransportURI`. Missing metadata is empty metadata. -/
def setAVTransportURI (opts : AvtOptions) (avt : AVTransport) (w : World) (setnext : Bool)
    (uri metadata : Option String) (env : SetUriEnv) : UpnpCode × AVTransport × World :=
  match uri.bind help.morphSpecialUrl with
  | none => (.invalidParam, avt, w)
  | some (uri, _) =>
      let metadata := metadata.getD ""
      let mpds := w.cli.m_stat
      match help.checkContentFormat uri metadata false with
      | none => (.invalidParam, avt, w)
      | some metaformpd =>
          let cleared : Bool := opts.ownQueue && !setnext
          let w := if cleared then (MpdCli.clearQueue w env.clear).2 else w
          let curpos := if cleared then 0 else mpds.songpos.toNat
          let w := resetModes opts w env
          if setnext ∧ mpds.qlen = 0 then (.invalidParam, avt, w)
          else
            let w :=
              if setnext ∧ opts.ownQueue ∧ mpds.qlen > 1 then trimQueue w curpos env else w
            insertTrack opts avt w setnext uri metadata metaformpd mpds.state curpos env

end AVTransport

end Upmpdcli
