import Upmpdcli.AVTransport
import Upmpdcli.Lib.Machine
import Upmpdcli.OHPlaylistCache

set_option autoImplicit false

/- The current track which the AVTransport service publishes, while its actions, MPD, its
other clients and the other services change what it is. -/
namespace Upmpdcli

/-- The service at work, with the playlist service if there is one. Three lists keep where
its metadata may come from: what actions of the two services have set for a uri, the songs
of which MPD has told the data, and the uris which a computation of the state has seen
while MPD neither played nor paused. -/
structure AvtRun where
  avt : AVTransport := {}
  w : World := {}
  radioPlaying : Bool := false
  ohp : Option OHPlaylist := none
  given : List (String × String) := []
  told : List UpSong := []
  idle : List String := []
deriving DecidableEq

/-- The two actions, the computation of the state and a status request, everything else
that happens to MPD, and what the other services do to the data which the service reads. -/
inductive AvtAct
  | setUri (setnext : Bool) (uri metadata : Option String) (env : SetUriEnv)
  | event (ok : Bool)
  | updStatus (env : StatusEnv)
  | mpd (mpd : Mpd)
  | setRadio (on : Bool)
  | playlistActive (on : Bool)
  | playlistInsert (uri metadata : String) (nocheck : Bool)
  | playlistState (env : ListEnv)
  | playlistRead (id : Int) (answered : Bool)

/-- The data of the current song has come from MPD, which knows no object ids. -/
def World.FromMpd (w : World) : Prop := w.cli.m_stat.currentsong.id = ""

namespace AvtRun

variable (help : PlaylistHelp) (opts : AvtOptions)

def setUri (s : AvtRun) (setnext : Bool) (uri metadata : Option String) (env : SetUriEnv) :
    AvtRun :=
  let (code, avt, w) := s.avt.setAVTransportURI help opts s.w setnext uri metadata env
  let set : List (String × String) :=
    match code, uri.bind help.morphSpecialUrl with
    | .success, some (uri, _) => [(uri, metadata.getD "")]
    | _, _ => []
  { s with avt := avt, w := w, given := set ++ s.given }

def event (s : AvtRun) (ok : Bool) : AvtRun × StateMap :=
  let mpds := s.w.cli.m_stat
  let (status, avt) :=
    s.avt.tpstateMToU help opts mpds ok s.radioPlaying (s.ohp.map (·.m_metacache))
  let idle := if AVTransport.isSong mpds then s.idle else mpds.currentsong.rsrc.uri :: s.idle
  ({ s with avt := avt, told := mpds.currentsong :: s.told, idle := idle }, status)

def playlistInsert (s : AvtRun) (pl : OHPlaylist) (uri metadata : String) (nocheck : Bool) :
    AvtRun :=
  match pl.startInsert help uri metadata nocheck with
  | none => s
  | some (_, pl) => { s with ohp := some pl, given := (uri, metadata) :: s.given }

def playlistState (s : AvtRun) (pl : OHPlaylist) (env : ListEnv) : AvtRun :=
  let (_, pl, w) := pl.makestate help s.w env
  let queue := ((MpdCli.getQueueData s.w env).1).getD []
  { s with ohp := some pl, w := w, told := s.w.cli.m_stat.currentsong :: queue ++ s.told }

def playlistRead (s : AvtRun) (pl : OHPlaylist) (id : Int) (answered : Bool) : AvtRun :=
  let (_, _, pl) := pl.ohread help s.w id answered
  { s with ohp := some pl, told := (OHPlaylist.statSong s.w id answered).toList ++ s.told }

def step (s : AvtRun) : AvtAct → Option (AvtRun × StateMap)
  | .setUri setnext uri metadata env => some (s.setUri help opts setnext uri metadata env, [])
  | .event ok => some (s.event help opts ok)
  | .updStatus env => some ({ s with w := (Upmpdcli.updStatus s.w env).1 }, [])
  | .mpd mpd => some ({ s with w := { s.w with mpd := mpd } }, [])
  | .setRadio on => some ({ s with radioPlaying := on }, [])
  | .playlistActive on =>
      s.ohp.map fun pl => ({ s with ohp := some { pl with m_active := on } }, [])
  | .playlistInsert uri metadata nocheck =>
      s.ohp.map fun pl => (s.playlistInsert help pl uri metadata nocheck, [])
  | .playlistState env => s.ohp.map fun pl => (s.playlistState help pl env, [])
  | .playlistRead id answered => s.ohp.map fun pl => (s.playlistRead help pl id answered, [])

/-- The metadata was set for this uri, or made from the data MPD has for it. -/
def Describes (s : AvtRun) (uri metadata : String) : Prop :=
  (uri, metadata) ∈ s.given ∨
    ∃ song ∈ s.told, song.rsrc.uri = uri ∧ metadata = UpSong.didlmake help.soap song

/-- What is wanted of a computation of the state. -/
def Coherent (_ : AvtRun) (action : AvtAct) (t : AvtRun) (status : StateMap) : Prop :=
  match action with
  | .event _ =>
      let uri := t.w.cli.m_stat.currentsong.rsrc.uri
      uri ≠ "" → status.lookup "CurrentTrackURI" = some uri ∧
        ∃ metadata ∈ status.lookup "CurrentTrackMetaData", t.Describes help uri metadata
  | _ => True

/-- What the code does: there is no metadata for a track which was seen while MPD neither
played nor paused. -/
def CoherentOrIdle (_ : AvtRun) (action : AvtAct) (t : AvtRun) (status : StateMap) : Prop :=
  match action with
  | .event _ =>
      let uri := t.w.cli.m_stat.currentsong.rsrc.uri
      uri ≠ "" → status.lookup "CurrentTrackURI" = some uri ∧
        ∃ metadata ∈ status.lookup "CurrentTrackMetaData",
          t.Describes help uri metadata ∨ metadata = "" ∧ uri ∈ t.idle
  | _ => True

/-- The condition on each step: when a computation of the state finds another uri in MPD,
no radio plays and the metadata the service has was not made from MPD data. -/
def Follows (s : AvtRun) (action : AvtAct) (_ : AvtRun) (_ : StateMap) : Prop :=
  match action with
  | .event _ =>
      let uri := s.w.cli.m_stat.currentsong.rsrc.uri
      uri ≠ "" ∧ uri ≠ s.avt.m_uri →
        s.radioPlaying = false ∧ Smallut.contains s.avt.m_curMetadata UpSong.origMpd = false
  | _ => True

instance (s : AvtRun) : ∀ action t status, Decidable (Follows s action t status)
  | .event _, _, _ => inferInstanceAs (Decidable (_ → _))
  | .setUri .., _, _ | .updStatus _, _, _ | .mpd _, _, _ | .setRadio _, _, _ => .isTrue trivial
  | .playlistActive _, _, _ | .playlistInsert .., _, _ => .isTrue trivial
  | .playlistState _, _, _ | .playlistRead .., _, _ => .isTrue trivial

instance (s : AvtRun) (uri metadata : String) : Decidable (s.Describes help uri metadata) :=
  inferInstanceAs (Decidable (_ ∨ _))

instance (s t : AvtRun) (status : StateMap) : ∀ action, Decidable (Coherent help s action t status)
  | .event _ => inferInstanceAs (Decidable (_ → _))
  | .setUri .. | .updStatus _ | .mpd _ | .setRadio _ | .playlistActive _ => .isTrue trivial
  | .playlistInsert .. | .playlistState _ | .playlistRead .. => .isTrue trivial

/-- What the metadata of the current track may be between two computations. Metadata which
has the mark of MPD data is made again at the next one. -/
def Accounts (s : AvtRun) (uri metadata : String) : Prop :=
  s.Describes help uri metadata ∨ metadata = "" ∧ (uri = "" ∨ uri ∈ s.idle) ∨
    Smallut.contains metadata UpSong.origMpd = true

/-- What the service knows of the current and next tracks can be relied upon, and so can
the cache of the playlist. -/
structure Reliable (s : AvtRun) : Prop where
  current : s.Accounts help s.avt.m_uri s.avt.m_curMetadata
  next : s.avt.m_nextUri ≠ "" → (s.avt.m_nextUri, s.avt.m_nextMetadata) ∈ s.given
  cache : ∀ pl ∈ s.ohp, VarMap.All (s.Describes help) pl.m_metacache
  fromMpd : s.w.FromMpd

end AvtRun

namespace OHPlaylist

section Cache

variable (help : PlaylistHelp) {P : String → String → Prop}

/-- What a refresh puts into the cache was in the old one, or is made from data of MPD. -/
theorem all_refreshMetacache {pl : OHPlaylist} {vdata : List UpSong}
    (told : ∀ song ∈ vdata, P song.rsrc.uri (UpSong.didlmake help.soap song))
    (all : VarMap.All P pl.m_metacache) :
    VarMap.All P (pl.refreshMetacache help vdata).m_metacache := by
  intro uri metadata found
  rw [lookup_refreshMetacache] at found
  obtain ⟨usong, first, same⟩ := Option.map_eq_some_iff.mp found
  have here : usong.rsrc.uri = uri := by simpa using List.find?_some first
  cases cached : pl.m_metacache.lookup uri with
  | none =>
      rw [cached, Option.getD_none] at same
      rw [← same, ← here]
      exact told usong (List.mem_of_find?_eq_some first)
  | some old =>
      rw [cached, Option.getD_some] at same
      exact all uri metadata (same ▸ cached)

theorem all_refreshCache {pl : OHPlaylist} (mpds : MpdStatus) {vdata : List UpSong}
    (told : ∀ song ∈ vdata, P song.rsrc.uri (UpSong.didlmake help.soap song))
    (all : VarMap.All P pl.m_metacache) :
    VarMap.All P (pl.refreshCache help mpds vdata).2.m_metacache := by
  have walked (pl' : OHPlaylist) (same : pl'.m_metacache = pl.m_metacache) :
      VarMap.All P (pl'.refreshMetacache help vdata).m_metacache :=
    all_refreshMetacache help told (same ▸ all)
  unfold refreshCache
  cases vdata with
  | nil =>
      dsimp only
      split
      · exact walked _ rfl
      · exact all
  | cons first rest =>
      dsimp only
      split
      · exact walked _ rfl
      · exact all

theorem all_checkTitle {pl : OHPlaylist} {mpds : MpdStatus}
    (told : P mpds.currentsong.rsrc.uri (UpSong.didlmake help.soap mpds.currentsong))
    (all : VarMap.All P pl.m_metacache) :
    VarMap.All P (pl.checkTitle help mpds).2.m_metacache := by
  unfold checkTitle
  dsimp only
  split
  · split
    · exact all.set told
    · exact all
  · exact all

theorem all_makeIdArray {pl : OHPlaylist} {w : World} {env : ListEnv}
    (current : P w.cli.m_stat.currentsong.rsrc.uri
      (UpSong.didlmake help.soap w.cli.m_stat.currentsong))
    (queue : ∀ vdata, (MpdCli.getQueueData w env).1 = some vdata → ∀ song ∈ vdata,
      P song.rsrc.uri (UpSong.didlmake help.soap song))
    (all : VarMap.All P pl.m_metacache) :
    VarMap.All P (pl.makeIdArray help w env).2.1.m_metacache := by
  unfold makeIdArray
  dsimp only
  split
  · exact all_checkTitle help current all
  · split
    · exact all
    · rename_i vdata _ read
      apply all_refreshCache help _ _ all
      apply queue vdata
      rw [read]

theorem all_makestate {pl : OHPlaylist} {w : World} {env : ListEnv}
    (current : P w.cli.m_stat.currentsong.rsrc.uri
      (UpSong.didlmake help.soap w.cli.m_stat.currentsong))
    (queue : ∀ vdata, (MpdCli.getQueueData w env).1 = some vdata → ∀ song ∈ vdata,
      P song.rsrc.uri (UpSong.didlmake help.soap song))
    (all : VarMap.All P pl.m_metacache) :
    VarMap.All P (pl.makestate help w env).2.1.m_metacache := by
  have kept := all_makeIdArray help current queue all
  unfold makestate
  split
  · dsimp only
    split
    · exact kept
    · exact kept
  · exact all

theorem all_songMetadata {pl : OHPlaylist} {song : UpSong}
    (told : P song.rsrc.uri (UpSong.didlmake help.soap song))
    (all : VarMap.All P pl.m_metacache) :
    VarMap.All P (pl.songMetadata help song).2.m_metacache := by
  unfold songMetadata
  split
  · exact all
  · exact all.set told

theorem all_ohread {pl : OHPlaylist} {w : World} {id : Int} {answered : Bool}
    (told : ∀ song ∈ statSong w id answered,
      P song.rsrc.uri (UpSong.didlmake help.soap song))
    (all : VarMap.All P pl.m_metacache) :
    VarMap.All P (pl.ohread help w id answered).2.2.m_metacache := by
  unfold ohread
  split
  · split
    · exact all
    · rename_i song known
      exact all_songMetadata help (told song known) all
  · split
    · exact all
    · exact all

end Cache

end OHPlaylist

namespace World

theorem id_statSong {upsong : UpSong} (fromMpd : upsong.id = "") (song : Option MpdSong)
    (got : Bool) : (MpdStatus.statSong upsong song got).id = "" := by
  unfold MpdStatus.statSong
  split
  · split
    · exact fromMpd
    · exact fromMpd
  · exact fromMpd

theorem id_updSongs {stat : MpdStatus} (fromMpd : stat.currentsong.id = "") (mpd : Mpd)
    (env : StatusEnv) : (stat.updSongs mpd env).currentsong.id = "" := by
  unfold MpdStatus.updSongs
  split
  · dsimp only
    split
    · exact id_statSong fromMpd _ _
    · exact id_statSong fromMpd _ _
  · rfl

theorem fromMpd_updStatus {w : World} (fromMpd : w.FromMpd) (env : StatusEnv) :
    (updStatus w env).1.FromMpd := by
  unfold updStatus
  split
  · apply id_updSongs
    exact fromMpd
  · exact fromMpd

theorem cli_makestate (help : PlaylistHelp) (pl : OHPlaylist) (w : World) (env : ListEnv) :
    (pl.makestate help w env).2.2.cli = w.cli := by
  unfold OHPlaylist.makestate OHPlaylist.makeIdArray MpdCli.getQueueData MpdCli.getQueueSongs
  split
  · dsimp only
    split
    · rfl
    · cases env.answered with
      | true => rfl
      | false => rfl
  · rfl

theorem cli_command (w : World) (env : CmdEnv) (cmd : Nat → Mpd → Option Mpd) :
    (MpdCli.command w env cmd).2.cli = w.cli := by
  unfold MpdCli.command
  split <;> rfl

theorem fromMpd_command {w : World} (fromMpd : w.FromMpd) (env : CmdEnv)
    (cmd : Nat → Mpd → Option Mpd) : (MpdCli.command w env cmd).2.FromMpd := by
  unfold FromMpd
  rw [cli_command]
  exact fromMpd

theorem fromMpd_play {w : World} (fromMpd : w.FromMpd) (pos : Int) (env : PlayEnv) :
    (MpdCli.play w pos env).2.FromMpd := by
  have kept := fromMpd_command fromMpd env.cmd fun start mpd =>
    if pos ≥ 0 then mpd.playPos (unsigned pos) else mpd.play start
  unfold MpdCli.play
  dsimp only
  split <;> rename_i ran <;> rw [ran] at kept
  · exact kept
  · exact fromMpd_updStatus kept env.status

theorem fromMpd_insert {w : World} (fromMpd : w.FromMpd) (uri : String) (pos : Int)
    (song : UpSong) (env : InsertEnv) : (MpdCli.insert w uri pos song env).2.FromMpd := by
  unfold MpdCli.insert
  dsimp only
  split
  · exact fromMpd
  · exact fromMpd
  · rename_i id mpd _
    let cli : MpdCli := { w.cli with m_lastinsertid := id, m_lastinsertpos := pos }
    have inserted : FromMpd ⟨cli, MpdCli.sendTagData w.cli id song env.tags mpd⟩ := fromMpd
    exact fromMpd_updStatus inserted env.status

theorem fromMpd_resetModes {w : World} (fromMpd : w.FromMpd) (opts : AvtOptions)
    (env : SetUriEnv) : (AVTransport.resetModes opts w env).FromMpd := by
  unfold AVTransport.resetModes
  have repeated := fromMpd_command fromMpd env.rept fun _ mpd => some { mpd with rept := false }
  have random := fromMpd_command repeated env.random fun _ mpd =>
    some { mpd with random := false }
  have single := fromMpd_command random env.single fun _ mpd => some { mpd with single := false }
  dsimp only
  split
  · exact single
  · exact fromMpd_command single env.consume _

theorem fromMpd_trimQueue {w : World} (fromMpd : w.FromMpd) (curpos : Nat) (env : SetUriEnv) :
    (AVTransport.trimQueue w curpos env).FromMpd := by
  unfold AVTransport.trimQueue
  dsimp only
  split
  · exact fromMpd_command fromMpd env.trim _
  · exact fromMpd

theorem fromMpd_startTrack {w : World} (fromMpd : w.FromMpd) (opts : AvtOptions)
    (st : PlayState) (curpos : Nat) (env : SetUriEnv) :
    (AVTransport.startTrack opts w st curpos env).FromMpd := by
  unfold AVTransport.startTrack
  split
  · exact fromMpd_play fromMpd curpos env.play
  · cases st with
    | play => exact fromMpd_play fromMpd curpos env.play
    | pause => exact fromMpd_command fromMpd env.pause _
    | stop => exact fromMpd_command fromMpd env.stop _
    | unk => exact fromMpd

theorem fromMpd_cleanSongids {w : World} (fromMpd : w.FromMpd) (ids : List Int)
    (envs : List (Bool × CmdEnv)) : (AVTransport.cleanSongids w ids envs).FromMpd := by
  induction ids generalizing w envs with
  | nil => exact fromMpd
  | cons id ids ih =>
      cases envs with
      | nil => exact fromMpd
      | cons entry envs =>
          obtain ⟨answered, env⟩ := entry
          unfold AVTransport.cleanSongids
          apply ih
          split
          · exact fromMpd_command fromMpd env _
          · exact fromMpd

theorem fromMpd_insertTrack {w : World} (fromMpd : w.FromMpd) (opts : AvtOptions)
    (avt : AVTransport) (setnext : Bool) (uri metadata : String) (song : UpSong)
    (st : PlayState) (curpos : Nat) (env : SetUriEnv) :
    (avt.insertTrack opts w setnext uri metadata song st curpos env).2.2.FromMpd := by
  have inserted := fromMpd_insert fromMpd uri
    (if setnext then (curpos : Int) + 1 else curpos) song env.insert
  unfold AVTransport.insertTrack
  split
  rename_i songid w' ran
  rw [ran] at inserted
  split
  · exact inserted
  · cases setnext with
    | true => exact inserted
    | false =>
        have started := fromMpd_startTrack inserted opts st curpos env
        rw [if_neg Bool.false_ne_true]
        dsimp only
        split
        · exact started
        · exact fromMpd_cleanSongids started avt.m_songids env.clean

theorem fromMpd_setAVTransportURI {w : World} (fromMpd : w.FromMpd) (help : PlaylistHelp)
    (opts : AvtOptions) (avt : AVTransport) (setnext : Bool) (uri metadata : Option String)
    (env : SetUriEnv) :
    (avt.setAVTransportURI help opts w setnext uri metadata env).2.2.FromMpd := by
  have cleared (clear : Bool) :
      (if clear then (MpdCli.clearQueue w env.clear).2 else w).FromMpd := by
    split
    · exact fromMpd_command fromMpd env.clear _
    · exact fromMpd
  have modes (clear : Bool) := fromMpd_resetModes (cleared clear) opts env
  unfold AVTransport.setAVTransportURI
  split
  · exact fromMpd
  · dsimp only
    split
    · exact fromMpd
    · split
      · exact modes _
      · apply fromMpd_insertTrack
        split
        · exact fromMpd_trimQueue (modes _) _ env
        · exact modes _

end World

namespace AVTransport

/-- What a successful action sets. -/
def withTrack (avt : AVTransport) (setnext : Bool) (uri metadata : String) : AVTransport :=
  if setnext then { avt with m_nextUri := uri, m_nextMetadata := metadata }
  else { avt with m_uri := uri, m_curMetadata := metadata, m_nextUri := "", m_nextMetadata := "" }

theorem insertTrack_cases (opts : AvtOptions) (avt : AVTransport) (w : World) (setnext : Bool)
    (uri metadata : String) (song : UpSong) (st : PlayState) (curpos : Nat) (env : SetUriEnv) :
    let result := avt.insertTrack opts w setnext uri metadata song st curpos env
    result.1 ≠ .success ∧ result.2.1 = avt ∨
      result.1 = .success ∧ ∃ songids,
        result.2.1 = { avt.withTrack setnext uri metadata with m_songids := songids } := by
  cases setnext with
  | true =>
      simp only [insertTrack, withTrack, if_true]
      split
      · exact .inl ⟨nofun, rfl⟩
      · right
        refine ⟨rfl, ?_⟩
        cases opts.ownQueue with
        | true => exact ⟨_, rfl⟩
        | false => exact ⟨_, rfl⟩
  | false =>
      simp only [insertTrack, withTrack, if_neg Bool.false_ne_true]
      split
      · exact .inl ⟨nofun, rfl⟩
      · right
        refine ⟨rfl, ?_⟩
        cases opts.ownQueue with
        | true => exact ⟨_, rfl⟩
        | false => exact ⟨_, rfl⟩

theorem setAVTransportURI_cases (help : PlaylistHelp) (opts : AvtOptions) (avt : AVTransport)
    (w : World) (setnext : Bool) (uri metadata : Option String) (env : SetUriEnv) :
    let result := avt.setAVTransportURI help opts w setnext uri metadata env
    result.1 ≠ .success ∧ result.2.1 = avt ∨
      result.1 = .success ∧ ∃ morphed nocheck songids,
        uri.bind help.morphSpecialUrl = some (morphed, nocheck) ∧
        result.2.1 =
          { avt.withTrack setnext morphed (metadata.getD "") with m_songids := songids } := by
  unfold setAVTransportURI
  dsimp only
  split
  · exact .inl ⟨by simp, rfl⟩
  · rename_i morphed nocheck known
    split
    · exact .inl ⟨by simp, rfl⟩
    · split
      · exact .inl ⟨by simp, rfl⟩
      · rcases insertTrack_cases opts avt _ setnext morphed (metadata.getD "") _ _ _ env with
          failed | ⟨success, songids, same⟩
        · exact .inl failed
        · exact .inr ⟨success, morphed, nocheck, songids, known, same⟩

/-- A computation of the state publishes the current track it ends up with. -/
theorem track_tpstateMToU (help : PlaylistHelp) (opts : AvtOptions) (avt : AVTransport)
    (mpds : MpdStatus) (ok radioPlaying : Bool) (ohcache : Option (List (String × String))) :
    let avt' := avt.followMpd help mpds radioPlaying ohcache
    let (status, last) := avt.tpstateMToU help opts mpds ok radioPlaying ohcache
    last = avt' ∧ status.lookup "CurrentTrackURI" = some avt'.m_uri ∧
      status.lookup "CurrentTrackMetaData" = some avt'.m_curMetadata := ⟨rfl, rfl, rfl⟩

end AVTransport

namespace AvtRun

section Steps

variable {help : PlaylistHelp} {opts : AvtOptions} {s t : AvtRun}

theorem Describes.mono {uri metadata : String} (describes : s.Describes help uri metadata)
    (given : s.given ⊆ t.given) (told : s.told ⊆ t.told) : t.Describes help uri metadata := by
  rcases describes with set | ⟨song, member, same, made⟩
  · exact .inl (given set)
  · exact .inr ⟨song, told member, same, made⟩

theorem Accounts.mono {uri metadata : String} (accounts : s.Accounts help uri metadata)
    (given : s.given ⊆ t.given) (told : s.told ⊆ t.told) (idle : s.idle ⊆ t.idle) :
    t.Accounts help uri metadata := by
  rcases accounts with describes | ⟨none, seen⟩ | marked
  · exact .inl (describes.mono given told)
  · exact .inr (.inl ⟨none, seen.imp_right fun member => idle member⟩)
  · exact .inr (.inr marked)

/-- Steps which leave the tracks of the service alone. -/
theorem Reliable.keep (reliable : s.Reliable help) (avt : t.avt = s.avt)
    (given : s.given ⊆ t.given) (told : s.told ⊆ t.told) (idle : s.idle ⊆ t.idle)
    (cache : ∀ pl ∈ t.ohp, VarMap.All (t.Describes help) pl.m_metacache)
    (fromMpd : t.w.FromMpd) : t.Reliable help where
  current := by
    rw [avt]
    exact reliable.current.mono given told idle
  next := by
    rw [avt]
    exact fun there => given (reliable.next there)
  cache := cache
  fromMpd := fromMpd

theorem reliable_setUri (reliable : s.Reliable help) (setnext : Bool)
    (uri metadata : Option String) (env : SetUriEnv) :
    (s.setUri help opts setnext uri metadata env).Reliable help := by
  generalize same : s.setUri help opts setnext uri metadata env = t
  have fromMpd : t.w.FromMpd := by
    rw [← same]
    exact World.fromMpd_setAVTransportURI reliable.fromMpd help opts s.avt setnext uri
      metadata env
  have given : s.given ⊆ t.given := by
    rw [← same]
    exact List.subset_append_right _ _
  have told : s.told ⊆ t.told := by
    rw [← same]
    exact List.Subset.refl _
  have idle : s.idle ⊆ t.idle := by
    rw [← same]
    exact List.Subset.refl _
  have cache : ∀ pl ∈ t.ohp, VarMap.All (t.Describes help) pl.m_metacache := by
    intro pl there
    rw [← same] at there
    exact (reliable.cache pl there).mono fun _ _ describes => describes.mono given told
  have avt : t.avt = (s.avt.setAVTransportURI help opts s.w setnext uri metadata env).2.1 := by
    rw [← same]
    rfl
  rcases s.avt.setAVTransportURI_cases help opts s.w setnext uri metadata env with
    ⟨_, kept⟩ | ⟨success, morphed, nocheck, songids, known, set⟩
  · exact reliable.keep (avt.trans kept) given told idle cache fromMpd
  · have noted : (morphed, metadata.getD "") ∈ t.given := by
      rw [← same]
      unfold setUri
      dsimp only
      rw [success, known]
      exact List.mem_cons_self
    rw [set] at avt
    cases setnext with
    | true =>
        refine ⟨?_, fun _ => ?_, cache, fromMpd⟩
        · rw [avt]
          exact reliable.current.mono given told idle
        · rw [avt]
          exact noted
    | false =>
        refine ⟨?_, fun there => ?_, cache, fromMpd⟩
        · rw [avt]
          exact .inl (.inl noted)
        · rw [avt] at there
          exact absurd rfl there

/-- The tracks after a computation of the state. It records the current song, and its uri
when MPD neither plays nor pauses. -/
theorem followMpd_spec (reliable : s.Reliable help) {song : UpSong}
    (current : song = s.w.cli.m_stat.currentsong) (given : s.given ⊆ t.given)
    (told : song :: s.told ⊆ t.told) (idle : s.idle ⊆ t.idle)
    (seen : AVTransport.isSong s.w.cli.m_stat = false → song.rsrc.uri ∈ t.idle)
    (follows : song.rsrc.uri ≠ "" ∧ song.rsrc.uri ≠ s.avt.m_uri →
      s.radioPlaying = false ∧ Smallut.contains s.avt.m_curMetadata UpSong.origMpd = false) :
    let avt := s.avt.followMpd help s.w.cli.m_stat s.radioPlaying (s.ohp.map (·.m_metacache))
    t.Accounts help avt.m_uri avt.m_curMetadata ∧
      (avt.m_nextUri ≠ "" → (avt.m_nextUri, avt.m_nextMetadata) ∈ t.given) ∧
      (song.rsrc.uri ≠ "" → avt.m_uri = song.rsrc.uri ∧
        (t.Describes help song.rsrc.uri avt.m_curMetadata ∨
          avt.m_curMetadata = "" ∧ song.rsrc.uri ∈ t.idle)) := by
  have kept := reliable.current.mono given (fun _ member => told (List.mem_cons_of_mem _ member))
    idle
  have next := fun there => given (reliable.next there)
  have made : t.Describes help song.rsrc.uri (UpSong.didlmake help.soap song) :=
    .inr ⟨song, told List.mem_cons_self, rfl, rfl⟩
  have marked : Smallut.contains (UpSong.didlmake help.soap song) UpSong.origMpd = true := by
    rw [current]
    exact UpSong.contains_didlmake help.soap reliable.fromMpd
  unfold AVTransport.followMpd
  rw [← current]
  dsimp only
  split
  · rename_i fromMpd
    refine ⟨.inr (.inr marked), next, fun some => ?_⟩
    have same : song.rsrc.uri = s.avt.m_uri := by
      by_contra other
      have clear := follows ⟨some, other⟩
      rcases fromMpd with radio | mark
      · rw [clear.1] at radio
        cases radio
      · rw [clear.2] at mark
        cases mark
    exact ⟨same.symm, .inl made⟩
  · rename_i ours
    split
    · -- the next track has begun
      rename_i promoted
      have noted := next (promoted.2 ▸ promoted.1)
      refine ⟨.inl (.inl noted), fun there => absurd rfl there, fun _ => ⟨promoted.2.symm, ?_⟩⟩
      rw [promoted.2]
      exact .inl (.inl noted)
    · split
      · -- somebody else has chosen the track
        have accounts {metadata : String} (described : t.Describes help song.rsrc.uri metadata ∨
            metadata = "" ∧ song.rsrc.uri ∈ t.idle) :
            t.Accounts help song.rsrc.uri metadata := by
          rcases described with describes | ⟨none, idle⟩
          · exact .inl describes
          · exact .inr (.inl ⟨none, .inr idle⟩)
        cases cached : (s.ohp.map (·.m_metacache)).bind (·.lookup song.rsrc.uri) with
        | some metadata =>
            obtain ⟨cache, service, entry⟩ := Option.bind_eq_some_iff.mp cached
            obtain ⟨pl, there, rfl⟩ := Option.map_eq_some_iff.mp service
            have describes := (reliable.cache pl there _ _ entry).mono given
              fun _ member => told (List.mem_cons_of_mem _ member)
            exact ⟨accounts (.inl describes), fun there => absurd rfl there,
              fun _ => ⟨rfl, .inl describes⟩⟩
        | none =>
            cases playing : AVTransport.isSong s.w.cli.m_stat with
            | true =>
                exact ⟨accounts (.inl made), fun there => absurd rfl there,
                  fun _ => ⟨rfl, .inl made⟩⟩
            | false =>
                have silent : "" = "" ∧ song.rsrc.uri ∈ t.idle := ⟨rfl, seen playing⟩
                exact ⟨accounts (.inr silent), fun there => absurd rfl there,
                  fun _ => ⟨rfl, .inr silent⟩⟩
      · rename_i same
        refine ⟨kept, next, fun some => ?_⟩
        have here : song.rsrc.uri = s.avt.m_uri := by
          by_contra other
          exact same ⟨some, other⟩
        rw [here]
        refine ⟨rfl, ?_⟩
        rcases kept with describes | ⟨none, seen⟩ | mark
        · exact .inl describes
        · refine .inr ⟨none, seen.resolve_left ?_⟩
          rw [← here]
          exact some
        · exact absurd (.inr mark) ours

theorem reliable_event (reliable : s.Reliable help) {ok : Bool} {status : StateMap}
    (ran : s.event help opts ok = (t, status)) (follows : Follows s (.event ok) t status) :
    t.Reliable help ∧ CoherentOrIdle help s (.event ok) t status := by
  obtain ⟨avt, uri, metadata⟩ := s.avt.track_tpstateMToU help opts s.w.cli.m_stat ok
    s.radioPlaying (s.ohp.map (·.m_metacache))
  obtain ⟨rfl, rfl⟩ := Prod.mk.inj ran
  have told : s.told ⊆ s.w.cli.m_stat.currentsong :: s.told := List.subset_cons_self _ _
  have idle : s.idle ⊆ (if AVTransport.isSong s.w.cli.m_stat then s.idle
      else s.w.cli.m_stat.currentsong.rsrc.uri :: s.idle) := by
    split
    · exact List.Subset.refl _
    · exact List.subset_cons_self _ _
  have seen (quiet : AVTransport.isSong s.w.cli.m_stat = false) :
      s.w.cli.m_stat.currentsong.rsrc.uri ∈ (if AVTransport.isSong s.w.cli.m_stat then s.idle
        else s.w.cli.m_stat.currentsong.rsrc.uri :: s.idle) := by
    rw [quiet]
    exact List.mem_cons_self
  have spec := followMpd_spec (t := (s.event help opts ok).1) reliable rfl
    (List.Subset.refl _) (List.Subset.refl _) idle seen follows
  rw [← avt] at spec uri metadata
  refine ⟨⟨spec.1, spec.2.1, fun pl there => ?_, reliable.fromMpd⟩, fun some => ?_⟩
  · exact (reliable.cache pl there).mono fun _ _ describes =>
      describes.mono (List.Subset.refl _) told
  · obtain ⟨here, described⟩ := spec.2.2 some
    exact ⟨uri.trans (congrArg Option.some here), _, metadata, described⟩

theorem reliable_updStatus (reliable : s.Reliable help) (env : StatusEnv) :
    Reliable help { s with w := (Upmpdcli.updStatus s.w env).1 } := by
  refine reliable.keep rfl (List.Subset.refl _) (List.Subset.refl _) (List.Subset.refl _) ?_ ?_
  · exact reliable.cache
  · exact World.fromMpd_updStatus reliable.fromMpd env

theorem reliable_playlistInsert (reliable : s.Reliable help) {pl : OHPlaylist}
    (there : pl ∈ s.ohp) (uri metadata : String) (nocheck : Bool) :
    (s.playlistInsert help pl uri metadata nocheck).Reliable help := by
  unfold playlistInsert OHPlaylist.startInsert
  split
  · exact reliable
  · rename_i song pl' started
    split at started
    · cases started
    · cases started
      refine reliable.keep rfl (List.subset_cons_self _ _) (List.Subset.refl _)
        (List.Subset.refl _) ?_ reliable.fromMpd
      rintro _ ⟨⟩
      have kept := (reliable.cache pl there).mono fun _ _ describes =>
        Describes.mono (t := { s with given := (uri, metadata) :: s.given }) describes
          (List.subset_cons_self _ _) (List.Subset.refl _)
      exact kept.set (.inl List.mem_cons_self)

theorem reliable_playlistState (reliable : s.Reliable help) {pl : OHPlaylist}
    (there : pl ∈ s.ohp) (env : ListEnv) :
    (s.playlistState help pl env).Reliable help := by
  have told : s.told ⊆ (s.playlistState help pl env).told :=
    List.subset_append_right (_ :: _) _
  have fromMpd : (s.playlistState help pl env).w.FromMpd := by
    show (pl.makestate help s.w env).2.2.cli.m_stat.currentsong.id = ""
    rw [World.cli_makestate]
    exact reliable.fromMpd
  refine reliable.keep rfl (List.Subset.refl _) told (List.Subset.refl _) ?_ fromMpd
  rintro _ ⟨⟩
  apply OHPlaylist.all_makestate
  · exact .inr ⟨_, List.mem_append_left _ List.mem_cons_self, rfl, rfl⟩
  · intro vdata read song member
    refine .inr ⟨song, List.mem_append_left _ (List.mem_cons_of_mem _ ?_), rfl, rfl⟩
    rw [read]
    exact member
  · exact (reliable.cache pl there).mono fun _ _ describes =>
      describes.mono (List.Subset.refl _) told

theorem reliable_playlistRead (reliable : s.Reliable help) {pl : OHPlaylist}
    (there : pl ∈ s.ohp) (id : Int) (answered : Bool) :
    (s.playlistRead help pl id answered).Reliable help := by
  have told : s.told ⊆ (s.playlistRead help pl id answered).told :=
    List.subset_append_right _ _
  refine reliable.keep rfl (List.Subset.refl _) told (List.Subset.refl _) ?_ reliable.fromMpd
  rintro _ ⟨⟩
  apply OHPlaylist.all_ohread
  · intro song known
    exact .inr ⟨song, List.mem_append_left _ (Option.mem_toList.mpr known), rfl, rfl⟩
  · exact (reliable.cache pl there).mono fun _ _ describes =>
      describes.mono (List.Subset.refl _) told

theorem reliable_step {action : AvtAct} {status : StateMap} (reliable : s.Reliable help)
    (follows : Follows s action t status)
    (taken : s.step help opts action = some (t, status)) :
    t.Reliable help ∧ CoherentOrIdle help s action t status := by
  cases action with
  | setUri setnext uri metadata env =>
      cases taken
      exact ⟨reliable_setUri reliable setnext uri metadata env, trivial⟩
  | event ok => exact reliable_event reliable (Option.some.inj taken) follows
  | updStatus env =>
      cases taken
      exact ⟨reliable_updStatus reliable env, trivial⟩
  | mpd mpd =>
      cases taken
      exact ⟨⟨reliable.current, reliable.next, reliable.cache, reliable.fromMpd⟩, trivial⟩
  | setRadio on =>
      cases taken
      exact ⟨⟨reliable.current, reliable.next, reliable.cache, reliable.fromMpd⟩, trivial⟩
  | playlistActive on =>
      obtain ⟨pl, there, same⟩ := Option.map_eq_some_iff.mp taken
      cases same
      refine ⟨⟨reliable.current, reliable.next, ?_, reliable.fromMpd⟩, trivial⟩
      rintro _ ⟨⟩
      exact reliable.cache pl there
  | playlistInsert uri metadata nocheck =>
      obtain ⟨pl, there, same⟩ := Option.map_eq_some_iff.mp taken
      cases same
      exact ⟨reliable_playlistInsert reliable there uri metadata nocheck, trivial⟩
  | playlistState env =>
      obtain ⟨pl, there, same⟩ := Option.map_eq_some_iff.mp taken
      cases same
      exact ⟨reliable_playlistState reliable there env, trivial⟩
  | playlistRead id answered =>
      obtain ⟨pl, there, same⟩ := Option.map_eq_some_iff.mp taken
      cases same
      exact ⟨reliable_playlistRead reliable there id answered, trivial⟩

/-- The services when the program has started. The cache of the playlist may have been
restored from the disk. -/
def new (mpd : Mpd) (ohp : Option OHPlaylist) : AvtRun :=
  { w := { mpd := mpd }, ohp := ohp, given := (ohp.map (·.m_metacache)).getD [] }

theorem reliable_new (mpd : Mpd) (ohp : Option OHPlaylist) : (new mpd ohp).Reliable help := by
  refine ⟨.inr (.inl ⟨rfl, .inl rfl⟩), fun there => absurd rfl there, fun pl there => ?_, rfl⟩
  intro uri metadata found
  obtain ⟨before, after, same, -⟩ := List.lookup_eq_some_iff.mp found
  refine .inl ?_
  show (uri, metadata) ∈ (ohp.map (·.m_metacache)).getD []
  rw [show ohp = some pl from there, Option.map_some, Option.getD_some, same]
  exact List.mem_append_right _ List.mem_cons_self

end Steps

/-- In every run which meets the condition, each computation of the state publishes the uri
of MPD, with metadata which describes it. -/
theorem coherentOrIdle_of_follows (help : PlaylistHelp) (opts : AvtOptions) (mpd : Mpd)
    (ohp : Option OHPlaylist) (actions : List AvtAct)
    (follows : Machine.Along Follows (step help opts) (new mpd ohp) actions) :
    Machine.Along (CoherentOrIdle help) (step help opts) (new mpd ohp) actions := by
  have start : (new mpd ohp).Reliable help := reliable_new mpd ohp
  refine Machine.along_of_invariant ?_ _ _ start follows
  intro s action t status reliable follows taken
  exact reliable_step reliable follows taken

/-- An action sets the track, and then another client makes MPD play another one. -/
theorem coherentOrIdle_two :
    let other : MpdQueue := ⟨[{ id := 2, uri := "http://h/b" }], by decide, by decide⟩
    let insert : InsertEnv := { add := { first := { newid := 1 } } }
    Machine.Along (CoherentOrIdle .plain) (step .plain { autoplay := true }) (new {} none)
      [.setUri false (some "http://h/a") (some "meta") { insert := insert }, .updStatus {},
        .event true, .mpd { queue := other, state := .play, songpos := some 0 }, .updStatus {},
        .event true] :=
  coherentOrIdle_of_follows .plain { autoplay := true } {} none _ (by decide)

/-- A stopped track which only MPD knows has no metadata. -/
theorem idle_not_coherent :
    let queue : MpdQueue := ⟨[{ id := 1, uri := "http://h/a" }], by decide, by decide⟩
    ¬ Machine.Along (Coherent .plain) (step .plain {})
        (new { queue := queue, songpos := some 0 } none) [.updStatus {}, .event true] := by
  decide

end AvtRun

end Upmpdcli
