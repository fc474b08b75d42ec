import Upmpdcli.Mpd
import Upmpdcli.UpSong

set_option autoImplicit false

namespace Upmpdcli

/-- What becomes of a command: MPD replies, or executes it and the reply is lost with the
connection, or never gets it. -/
inductive Outcome
  | replied
  | lost
  | notSent
deriving DecidableEq

/-- One command sent to MPD: what the other clients do to the queue before it, its outcome,
and the id MPD chooses if the command adds a song. -/
structure Attempt where
  edits : List MpdQueue := []
  outcome : Outcome := .replied
  newid : Nat := 0
deriving DecidableEq

def Attempt.run {α : Type} (e : Attempt) (cmd : Nat → Mpd → Option (α × Mpd)) (mpd : Mpd) :
    Option α × Mpd :=
  let mpd := mpd.edited e.edits
  match e.outcome, cmd e.newid mpd with
  | .replied, some (result, mpd) => (some result, mpd)
  | .lost, some (_, mpd) => (none, mpd)
  | _, _ => (none, mpd)

/-- The environment of a `RETRY_CMD`: whether there is a connection, the first attempt,
whether `showError` finds it closed and opens it again, and the second attempt. -/
structure CmdEnv where
  ok : Bool := true
  first : Attempt := {}
  reopened : Bool := false
  second : Attempt := {}
deriving DecidableEq

/-- How a `RETRY_CMD` ends. Without a connection the command is not even evaluated. -/
inductive Retried (α : Type)
  | notOk
  | error
  | success (result : α)

/-- `RETRY_CMD`. A command which MPD refuses leaves the connection open. -/
def retryCmd {α : Type} (env : CmdEnv) (cmd : Nat → Mpd → Option (α × Mpd)) (mpd : Mpd) :
    Retried α × Mpd :=
  if env.ok then
    match env.first.run cmd mpd with
    | (some result, mpd) => (.success result, mpd)
    | (none, mpd) =>
        if env.first.outcome ≠ .replied ∧ env.reopened = true then
          match env.second.run cmd mpd with
          | (some result, mpd) => (.success result, mpd)
          | (none, mpd) => (.error, mpd)
        else (.error, mpd)
  else (.notOk, mpd)

structure MpdStatus where
  volume : Int := -1
  rept : Bool := false
  random : Bool := false
  single : Bool := false
  consume : Bool := false
  qlen : Int := 0
  qvers : Int := -1
  state : PlayState := .unk
  songpos : Int := -1
  songid : Int := -1
  songelapsedms : Nat := 0
  songlenms : Nat := 0
  currentsong : UpSong := {}
  nextsong : UpSong := {}
  trackcounter : Int := 0
  detailscounter : Int := 0
deriving DecidableEq

/-- `MPDCli`, without its connections and threads. -/
structure MpdCli where
  m_stat : MpdStatus := {}
  m_premutevolume : Int := 0
  m_cachedvolume : Int := 50
  m_have_addtagid : Bool := true
  m_lastinsertid : Int := -1
  m_lastinsertpos : Int := -1
  m_lastinsertqvers : Int := -1
deriving DecidableEq

/-- The client and the daemon. -/
structure World where
  cli : MpdCli := {}
  mpd : Mpd := {}
deriving DecidableEq

/-- The regular expression `^[[:alpha:]]+://.+`. -/
def looksLikeTransportURI (path : String) : Bool :=
  let rest := path.toList.dropWhile Char.isAlpha
  path.toList.head?.any Char.isAlpha && "://".toList.isPrefixOf rest && 3 < rest.length

/-- The uri of a song as the program shows it: what looks like a local file name becomes
a bogus http uri. -/
def mapUri (uri : String) : String :=
  if looksLikeTransportURI uri then uri else "http://127.0.0.1/" ++ uri

theorem mapUri_of_looksLikeTransportURI {uri : String} (transport : looksLikeTransportURI uri) :
    mapUri uri = uri := if_pos transport

def MpdSong.firstTag (song : MpdSong) (name : String) : String := (song.tags.lookup name).getD ""

def mapSong (upsong : UpSong) (song : MpdSong) : UpSong :=
  let name := song.firstTag "Name"
  let artist := song.firstTag "Artist"
  { upsong with
    name := name
    artist := if artist = "" then name else artist
    album := song.firstTag "Album"
    title := song.firstTag "Title"
    tracknum := String.ofList ((song.firstTag "Track").toList.takeWhile (· ≠ '/'))
    genre := song.firstTag "Genre"
    rsrc := { upsong.rsrc with uri := mapUri song.uri, duration_secs := song.duration }
    mpdid := song.id }

/-- The environment of `updStatus`: the edits of other clients before and after MPD makes
its answer, whether there is an answer with a volume in it, and whether the songs can be
read after it. -/
structure StatusEnv where
  before : List MpdQueue := []
  answered : Bool := true
  mixer : Bool := true
  during : List MpdQueue := []
  gotCurrent : Bool := true
  gotNext : Bool := true
deriving DecidableEq

namespace MpdStatus

def setVolume (stat : MpdStatus) (volume cachedvolume : Int) : MpdStatus :=
  { stat with volume := if volume ≥ 0 then volume else cachedvolume }

/-- The fields which are copied from MPD's answer. -/
def copyStatus (stat : MpdStatus) (mpd : Mpd) : MpdStatus :=
  { stat with
    rept := mpd.rept
    random := mpd.random
    single := mpd.single
    consume := mpd.consume
    qlen := mpd.queue.songs.length
    qvers := mpd.vers
    state := mpd.state
    songpos := (mpd.songpos.map Int.ofNat).getD (-1)
    songid := ((mpd.songpos.bind (mpd.queue.ids[·]?)).map Int.ofNat).getD (-1)
    songelapsedms := mpd.elapsedms
    songlenms := mpd.songlenms }

/-- `statSong_i`: a song which cannot be read leaves the old data. -/
def statSong (upsong : UpSong) (song : Option MpdSong) (got : Bool) : UpSong :=
  match song with
  | some song => if got then mapSong upsong song else upsong
  | none => upsong

/-- The current and next song, and the track counter. `mpd` is the daemon when they are
read. -/
def updSongs (stat : MpdStatus) (mpd : Mpd) (env : StatusEnv) : MpdStatus :=
  if stat.songpos ≥ 0 then
    let prevuri := stat.currentsong.rsrc.uri
    let current :=
      statSong stat.currentsong (mpd.songpos.bind (mpd.queue.songs[·]?)) env.gotCurrent
    let next := statSong stat.nextsong mpd.queue.songs[(stat.songpos + 1).toNat]? env.gotNext
    if current.rsrc.uri ≠ prevuri then
      { stat with
        currentsong := current
        trackcounter := stat.trackcounter + 1
        detailscounter := 0
        nextsong := next }
    else { stat with currentsong := current, nextsong := next }
  else { stat with currentsong := {}, nextsong := {} }

end MpdStatus

/-- `updStatus`, with the volume controlled by MPD and no `onplay`, `onpause` and `onstop`
commands. -/
def updStatus (w : World) (env : StatusEnv) : World × Bool :=
  let mpd := w.mpd.edited env.before
  if env.answered then
    let volume := if env.mixer then mpd.volume else -1
    let stat := (w.cli.m_stat.setVolume volume w.cli.m_cachedvolume).copyStatus mpd
    let mpd := mpd.edited env.during
    ({ cli := { w.cli with
        m_stat := stat.updSongs mpd env
        m_cachedvolume := if volume ≥ 0 then volume else w.cli.m_cachedvolume }
       mpd := mpd }, true)
  else ({ w with mpd := mpd }, false)

/-- Reading the songs touches no other data of the status. -/
theorem updSongs_eq (stat : MpdStatus) (mpd : Mpd) (env : StatusEnv) :
    ∃ current next trackcounter detailscounter,
      stat.updSongs mpd env =
        { stat with
          currentsong := current
          nextsong := next
          trackcounter := trackcounter
          detailscounter := detailscounter } := by
  unfold MpdStatus.updSongs
  split
  · dsimp only
    split
    · exact ⟨_, _, _, _, rfl⟩
    · exact ⟨_, _, _, _, rfl⟩
  · exact ⟨_, _, _, _, rfl⟩

@[simp] theorem qvers_updSongs (stat : MpdStatus) (mpd : Mpd) (env : StatusEnv) :
    (stat.updSongs mpd env).qvers = stat.qvers := by
  obtain ⟨_, _, _, _, same⟩ := updSongs_eq stat mpd env
  rw [same]

@[simp] theorem volume_updSongs (stat : MpdStatus) (mpd : Mpd) (env : StatusEnv) :
    (stat.updSongs mpd env).volume = stat.volume := by
  obtain ⟨_, _, _, _, same⟩ := updSongs_eq stat mpd env
  rw [same]

/-- The volumes after a status request are both the one MPD has, or both the cached one. -/
theorem volume_updStatus (w : World) (env : StatusEnv) :
    let told := (updStatus w env).1
    told.mpd.volume = w.mpd.volume ∧ told.cli.m_premutevolume = w.cli.m_premutevolume ∧
      (env.answered = true → told.cli.m_stat.volume = told.cli.m_cachedvolume ∧
        (0 ≤ w.mpd.volume ∧ told.cli.m_cachedvolume = w.mpd.volume ∨
          told.cli.m_cachedvolume = w.cli.m_cachedvolume)) := by
  unfold updStatus
  split
  · simp only [Mpd.volume_edited, volume_updSongs, MpdStatus.copyStatus, MpdStatus.setVolume]
    refine ⟨trivial, trivial, fun _ => ?_⟩
    by_cases known : (if env.mixer then w.mpd.volume else -1) ≥ 0
    · rw [if_pos known]
      refine ⟨trivial, .inl ?_⟩
      cases mixer : env.mixer with
      | true => simpa [mixer] using known
      | false => simp [mixer] at known
    · rw [if_neg known]
      exact ⟨trivial, .inr rfl⟩
  · rename_i unanswered
    exact ⟨Mpd.volume_edited _ _, rfl, fun answered => absurd answered unanswered⟩

/-- The daemon after a status request, and what the client knows of the queue version. -/
theorem mpd_updStatus (w : World) (env : StatusEnv) :
    (updStatus w env).1.mpd =
      if env.answered then (w.mpd.edited env.before).edited env.during
      else w.mpd.edited env.before := by
  unfold updStatus
  split <;> rfl

theorem qvers_updStatus (w : World) (env : StatusEnv) :
    (updStatus w env).1.cli.m_stat.qvers =
      if env.answered then ((w.mpd.edited env.before).vers : Int) else w.cli.m_stat.qvers := by
  unfold updStatus
  split
  · simp only [qvers_updSongs, MpdStatus.copyStatus]
  · rfl

/-- A status request does not touch what is remembered of the last insertion. -/
theorem lastinsert_updStatus (w : World) (env : StatusEnv) :
    (updStatus w env).1.cli.m_lastinsertid = w.cli.m_lastinsertid ∧
      (updStatus w env).1.cli.m_lastinsertpos = w.cli.m_lastinsertpos ∧
      (updStatus w env).1.cli.m_lastinsertqvers = w.cli.m_lastinsertqvers := by
  unfold updStatus
  split <;> exact ⟨rfl, rfl, rfl⟩

end Upmpdcli
