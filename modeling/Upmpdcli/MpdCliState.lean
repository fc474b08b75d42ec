import Upmpdcli.MpdCliInsert

set_option autoImplicit false

/- The commands of the player, and the state of MPD which is saved when a source is left
and restored when it comes back. -/
namespace Upmpdcli

structure MpdState where
  status : MpdStatus := {}
  queue : List UpSong := []
deriving DecidableEq

/-- The environment of a command which a status request follows, or precedes. -/
structure PlayEnv where
  cmd : CmdEnv := {}
  status : StatusEnv := {}
deriving DecidableEq

structure SaveEnv where
  status : StatusEnv := {}
  list : ListEnv := {}
deriving DecidableEq

/-- The environment of `restoreState`: whether the connection can be opened, and what
happens to each command. There is one insertion for each song. -/
structure RestoreEnv where
  ok : Bool := true
  clear : CmdEnv := {}
  inserts : List InsertEnv := []
  rept : CmdEnv := {}
  random : CmdEnv := {}
  single : CmdEnv := {}
  consume : CmdEnv := {}
  volume : Attempt := {}
  play : PlayEnv := {}
  seek : PlayEnv := {}
  pause : CmdEnv := {}
deriving DecidableEq

namespace MpdCli

/-- A `RETRY_CMD` without a result. -/
def command (w : World) (env : CmdEnv) (cmd : Nat → Mpd → Option Mpd) : Bool × World :=
  match retryCmd env (fun chosen mpd => (cmd chosen mpd).map fun mpd => ((), mpd)) w.mpd with
  | (.success _, mpd) => (true, { w with mpd := mpd })
  | (.error, mpd) | (.notOk, mpd) => (false, { w with mpd := mpd })

def clearQueue (w : World) (env : CmdEnv) : Bool × World :=
  command w env fun _ mpd => some mpd.clear

def repeat_ (w : World) (on : Bool) (env : CmdEnv) : Bool × World :=
  command w env fun _ mpd => some { mpd with rept := on }

def random (w : World) (on : Bool) (env : CmdEnv) : Bool × World :=
  command w env fun _ mpd => some { mpd with random := on }

def single (w : World) (on : Bool) (env : CmdEnv) : Bool × World :=
  command w env fun _ mpd => some { mpd with single := on }

def consume (w : World) (on : Bool) (env : CmdEnv) : Bool × World :=
  command w env fun _ mpd => some { mpd with consume := on }

def pause (w : World) (onoff : Bool) (env : CmdEnv) : Bool × World :=
  command w env fun _ mpd => some (mpd.setPause onoff)

def stop (w : World) (env : CmdEnv) : Bool × World :=
  command w env fun _ mpd => some mpd.stop

def next (w : World) (env : CmdEnv) : Bool × World :=
  command w env fun chosen mpd => mpd.next chosen

def previous (w : World) (env : CmdEnv) : Bool × World :=
  command w env fun chosen mpd => mpd.previous chosen

def togglePause (w : World) (env : CmdEnv) : Bool × World :=
  command w env fun _ mpd => some mpd.togglePause

def deleteId (w : World) (id : Int) (env : CmdEnv) : Bool × World :=
  command w env fun _ mpd => mpd.deleteId (unsigned id)

def deletePosRange (w : World) (start stop : Nat) (env : CmdEnv) : Bool × World :=
  command w env fun _ mpd => mpd.deleteRange start stop

def statId (w : World) (id : Int) (answered : Bool) : Bool :=
  answered && w.mpd.queue.ids.contains (unsigned id)

/-- `play`, with no `onstart` command. -/
def play (w : World) (pos : Int) (env : PlayEnv) : Bool × World :=
  let cmd (start : Nat) (mpd : Mpd) : Option Mpd :=
    if pos ≥ 0 then mpd.playPos (unsigned pos) else mpd.play start
  match command w env.cmd cmd with
  | (false, w) => (false, w)
  | (true, w) =>
      let (w, told) := updStatus w env.status
      (told, w)

def playId (w : World) (id : Int) (env : PlayEnv) : Bool × World :=
  match command w env.cmd fun _ mpd => mpd.playId (unsigned id) with
  | (false, w) => (false, w)
  | (true, w) =>
      let (w, told) := updStatus w env.status
      (told, w)

def seek (w : World) (seconds : Int) (env : PlayEnv) : Bool × World :=
  match updStatus w env.status with
  | (w, false) => (false, w)
  | (w, true) =>
      let songpos := w.cli.m_stat.songpos
      if songpos < 0 then (false, w)
      else command w env.cmd fun _ mpd => mpd.seekPos (unsigned songpos) (unsigned seconds)

/-- The loop of `getQueueData`, which maps each song over the one before. -/
def mapSongs : UpSong → List MpdSong → List UpSong
  | _, [] => []
  | usong, song :: rest =>
      let usong := mapSong usong song
      usong :: mapSongs usong rest

def getQueueData (w : World) (env : ListEnv) : Option (List UpSong) × World :=
  match getQueueSongs w env with
  | (none, w) => (none, w)
  | (some songs, w) => (some (mapSongs {} songs), w)

/-- `saveState`, which writes what it could read in any case. -/
def saveState (w : World) (st : MpdState) (seekms : Int) (env : SaveEnv) :
    Bool × MpdState × World :=
  match updStatus w env.status with
  | (w, false) => (false, st, w)
  | (w, true) =>
      let status := w.cli.m_stat
      let status := if seekms > 0 then { status with songelapsedms := seekms.toNat } else status
      match getQueueData w env.list with
      | (none, w) => (false, { status := status, queue := [] }, w)
      | (some queue, w) => (true, { status := status, queue := queue }, w)

/-- The loop of `restoreState`. A song without an environment finds no connection. -/
def insertAll (w : World) : Nat → List UpSong → List InsertEnv → Bool × World
  | _, [], _ => (true, w)
  | _, _ :: _, [] => (false, w)
  | i, song :: rest, env :: envs =>
      match insert w song.rsrc.uri i song env with
      | (id, w) => if id < 0 then (false, w) else insertAll w (i + 1) rest envs

/-- The end of `restoreState`. Its commands may fail. -/
def restorePlayer (w : World) (status : MpdStatus) (env : RestoreEnv) : World :=
  if status.state = .pause ∨ status.state = .play then
    let (_, w) := play w status.songpos env.play
    let w :=
      if status.songelapsedms > 0 then (seek w (status.songelapsedms / 1000) env.seek).2 else w
    if status.state = .pause then (pause w true env.pause).2 else w
  else w

def restoreModes (w : World) (status : MpdStatus) (env : RestoreEnv) : World :=
  let (_, w) := repeat_ w status.rept env.rept
  let (_, w) := random w status.random env.random
  let (_, w) := single w status.single env.single
  let (_, w) := consume w status.consume env.consume
  w

def restoreVolume (w : World) (volume : Int) (e : Attempt) : World :=
  { cli := { w.cli with m_cachedvolume := volume }
    mpd := (e.run (fun _ mpd => some ((), { mpd with volume := volume })) w.mpd).2 }

/-- `restoreState`, with the volume controlled by MPD. -/
def restoreState (w : World) (st : MpdState) (env : RestoreEnv) : Bool × World :=
  if env.ok then
    let (_, w) := clearQueue w env.clear
    match insertAll w 0 st.queue env.inserts with
    | (false, w) => (false, w)
    | (true, w) =>
        let w := restoreVolume (restoreModes w st.status env) st.status.volume env.volume
        (true, restorePlayer w st.status env)
  else (false, w)

theorem uris_mapSongs (usong : UpSong) (songs : List MpdSong) :
    (mapSongs usong songs).map (·.rsrc.uri) = songs.map fun song => mapUri song.uri := by
  induction songs generalizing usong with
  | nil => rfl
  | cons song rest ih =>
      simp only [mapSongs, List.map_cons, ih]
      rfl

theorem mpdids_mapSongs (usong : UpSong) (songs : List MpdSong) :
    (mapSongs usong songs).map (·.mpdid) = songs.map fun song => (song.id : Int) := by
  induction songs generalizing usong with
  | nil => rfl
  | cons song rest ih =>
      simp only [mapSongs, List.map_cons, ih]
      rfl

/-- Each song in its place. -/
theorem getElem?_mapSongs (usong : UpSong) {songs : List MpdSong} {place : Nat} {song : MpdSong}
    (there : songs[place]? = some song) :
    ∃ entry, (mapSongs usong songs)[place]? = some entry ∧ entry.mpdid = song.id ∧
      entry.rsrc.uri = mapUri song.uri := by
  induction songs generalizing usong place with
  | nil => cases there
  | cons first rest ih =>
      cases place with
      | zero =>
          cases there
          exact ⟨_, rfl, rfl, rfl⟩
      | succ place => exact ih _ there

end MpdCli

end Upmpdcli
