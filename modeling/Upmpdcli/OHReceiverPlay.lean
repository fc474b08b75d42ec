import Upmpdcli.AVTransportState
import Upmpdcli.OHReceiverState

set_option autoImplicit false

/- `OHReceiver::iPlay` with the queue of MPD: what it starts, and what it leaves when it fails. -/
namespace Upmpdcli

/-- What the receiver calls of libupnpp. `uMetaToUpSong` takes the first item of DIDL data. -/
structure ReceiverHelp where
  playlist : PlaylistHelp
  ohplIdArrayToVec : String → Option (List Int)
  xmlUnquote : String → String
  uMetaToUpSong : String → Option UpSong

/-- What happens to the queries of `urlMap`: MPD does not answer for the ids in `failed`. -/
structure UrlMapEnv where
  queue : ListEnv := {}
  failed : List Int := []
deriving DecidableEq

namespace OHPlaylist

/-- Songs which cannot be read are left out. -/
def ireadList (w : World) (failed ids : List Int) : List UpSong :=
  ids.filterMap fun id => statSong w id (id ∉ failed)

/-- `urlMap`: the uris of the ids in the id array. -/
def urlMap (help : ReceiverHelp) (pl : OHPlaylist) (w : World) (env : UrlMapEnv) :
    Option (List (Int × String)) × OHPlaylist × World :=
  let (_, sarray, pl, w) := iidArray help.playlist pl w env.queue
  match help.ohplIdArrayToVec sarray with
  | none => (none, pl, w)
  | some ids =>
      let songs := ireadList w env.failed ids
      (some (songs.foldl (fun umap song => VarMap.set umap song.mpdid song.rsrc.uri) []), pl, w)

end OHPlaylist

/-- What happens in `iStop`. No other client edits the queue while the songs are deleted. -/
structure ReceiverStopEnv where
  stop : CmdEnv := {}
  map : UrlMapEnv := {}
  deletes : List {env : CmdEnv // env.Alone} := []

/-- What happens in `iPlay`: whether there is a playlist service, the start of the command,
whether it writes its line in time, and the commands to MPD. -/
structure IPlayEnv where
  playlist : Bool := true
  start : StartExec := .started
  stop : CmdEnv := {}
  line : Bool := true
  map : UrlMapEnv := {}
  insert : InsertAfterEnv := {}
  play : PlayEnv := {}
  cleanUp : ReceiverStopEnv := {}

/-- The receiver with the playlist service and MPD. A process which runs is the child of its
command object. -/
structure ReceiverSystem where
  rcv : Songcast := {}
  m_httpport : Int := 8768
  pl : OHPlaylist := {}
  w : World := {}
  held : rcv.running = true → rcv.m_cmd.isSome = true := by decide

namespace Songcast

theorem running_zapChild {rcv : Songcast} (held : rcv.running = true → rcv.m_cmd.isSome = true) :
    rcv.zapChild.running = false := by
  unfold zapChild
  cases command : rcv.m_cmd with
  | some _ => rfl
  | none =>
      rw [command] at held
      exact Bool.eq_false_iff.mpr fun running => absurd (held running) (by decide)

theorem cmd_startExec (rcv : Songcast) (start : StartExec) :
    (rcv.startExec start).m_cmd.isSome = true := by
  cases start <;> rfl

end Songcast

/-- MPD deletes a song which it has. -/
theorem Mpd.deleteId_eq_none_iff {m : Mpd} {id : Nat} :
    m.deleteId id = none ↔ id ∉ m.queue.ids := by
  constructor
  · intro refused there
    obtain ⟨m', done, -⟩ := deleted_deleteId there
    rw [refused] at done
    cases done
  · intro absent
    rw [deleteId, List.idxOf?_eq_none_iff.mpr absent]

namespace ReceiverSystem

variable (help : ReceiverHelp)

/-- `m_httpuri`. -/
def httpuri (s : ReceiverSystem) : String :=
  "http://localhost:" ++ toString s.m_httpport ++ "/Songcast.wav"

def zapChild (s : ReceiverSystem) : ReceiverSystem :=
  { s with
    rcv := s.rcv.zapChild
    held := fun running =>
      absurd running (Bool.eq_false_iff.mp (Songcast.running_zapChild s.held)) }

/-- The new command object, and its start. -/
def startExec (s : ReceiverSystem) (start : StartExec) : ReceiverSystem :=
  { s.zapChild with
    rcv := s.zapChild.rcv.startExec start
    held := fun _ => Songcast.cmd_startExec _ start }

/-- The line comes from the child, and there has to be one. -/
def getline (s : ReceiverSystem) (line : Bool) : Bool :=
  s.rcv.m_cmd.any (fun cmd => cmd.child.isSome) && line

/-- The loop of `iPlay` over the url map. The last song with the address counts. -/
def mapId (urlmap : List (Int × String)) (uri : String) : Int :=
  urlmap.foldl (fun id entry => if entry.2 = uri then entry.1 else id) (-1)

/-- The loop of `iStop`: the ids which are deleted. -/
def doomed (urlmap : List (Int × String)) (uri : String) : List Int :=
  (urlmap.filter fun entry => entry.2 = uri).map Prod.fst

/-- An id without an environment finds no connection. -/
def deleteIds (w : World) : List Int → List {env : CmdEnv // env.Alone} → World
  | id :: rest, env :: envs => deleteIds (MpdCli.deleteId w id env.1).2 rest envs
  | _, _ => w

/-- The url map with which `iStop` goes on, which is empty when it cannot be made. -/
def stopMap (s : ReceiverSystem) (env : ReceiverStopEnv) :
    List (Int × String) × OHPlaylist × World :=
  let (_, w) := MpdCli.stop s.w env.stop
  let (urlmap, pl, w) := OHPlaylist.urlMap help s.pl w env.map
  (urlmap.getD [], pl, w)

def iStop (s : ReceiverSystem) (env : ReceiverStopEnv) : ReceiverSystem :=
  let s := s.zapChild
  match s.rcv.m_pm with
  | .alsa => s
  | .mpd =>
      let (urlmap, pl, w) := s.stopMap help env
      { s with pl := pl, w := deleteIds w (doomed urlmap s.httpuri) env.deletes }

/-- `playId`, the last step. -/
def playId (s : ReceiverSystem) (id : Int) (env : PlayEnv) : Bool × ReceiverSystem :=
  let (ok, w) := MpdCli.playId s.w id env
  (ok, { s with w := w })

/-- `iPlay` in the MPD play method, after the start. A step which fails goes to the end with
the `ok` of the start. -/
def mpdPlay (s : ReceiverSystem) (env : IPlayEnv) : Bool × ReceiverSystem :=
  let (_, w) := MpdCli.stop s.w env.stop
  let s := { s with w := w }
  if s.getline env.line then
    match OHPlaylist.urlMap help s.pl s.w env.map with
    | (none, pl, w) => (true, { s with pl := pl, w := w })
    | (some urlmap, pl, w) =>
        let s := { s with pl := pl, w := w }
        let id := mapId urlmap s.httpuri
        if id = -1 then
          match help.uMetaToUpSong (help.xmlUnquote s.rcv.m_metadata) with
          | none => (true, s)
          | some metaformpd =>
              let (id, w) := MpdCli.insertAfterId s.w s.httpuri 0 metaformpd env.insert
              let s := { s with w := w }
              if id = -1 then (true, s) else s.playId id env.play
        else s.playId id env.play
  else (true, s)

/-- Whether `iPlay` gets to the start of the command. -/
def Ready (s : ReceiverSystem) (env : IPlayEnv) : Prop :=
  env.playlist = true ∧ s.rcv.m_uri ≠ "" ∧ s.rcv.m_metadata ≠ ""

instance (s : ReceiverSystem) (env : IPlayEnv) : Decidable (s.Ready env) :=
  inferInstanceAs (Decidable (_ ∧ _ ∧ _))

def iPlay (s : ReceiverSystem) (env : IPlayEnv) : Bool × ReceiverSystem :=
  if s.Ready env then
    let s := s.startExec env.start
    let (ok, s) :=
      if env.start = .failed then (false, s)
      else
        match s.rcv.m_pm with
        | .mpd => s.mpdPlay help env
        | .alsa => (true, s)
    if ok then (true, s) else (false, s.iStop help env.cleanUp)
  else (false, s)

/-- A subprocess of the receiver is running. -/
def Running (s : ReceiverSystem) : Prop := s.rcv.running = true ∧ s.rcv.exited = false

/-- The address of the receiver is in the queue of MPD. -/
def Queued (s : ReceiverSystem) : Prop := ∃ song ∈ s.w.mpd.queue.songs, song.uri = s.httpuri

/-- The id of a song with the address of the receiver: one in the url map, or a new one. -/
inductive Located (s : ReceiverSystem) (env : IPlayEnv) (urlmap : List (Int × String)) :
    Int → ReceiverSystem → Prop
  | there : mapId urlmap s.httpuri ≠ -1 → Located s env urlmap (mapId urlmap s.httpuri) s
  | inserted {metaformpd : UpSong} : mapId urlmap s.httpuri = -1 →
      help.uMetaToUpSong (help.xmlUnquote s.rcv.m_metadata) = some metaformpd →
      (MpdCli.insertAfterId s.w s.httpuri 0 metaformpd env.insert).1 ≠ -1 →
      Located s env urlmap (MpdCli.insertAfterId s.w s.httpuri 0 metaformpd env.insert).1
        { s with w := (MpdCli.insertAfterId s.w s.httpuri 0 metaformpd env.insert).2 }

/-- The steps of the MPD play method between the start and `playId` succeed: the line comes,
the url map is made, and there is a song with the address, or it can be inserted. -/
def Prepared (s : ReceiverSystem) (env : IPlayEnv) (id : Int) (t : ReceiverSystem) : Prop :=
  s.getline env.line = true ∧ ∃ urlmap pl w,
    OHPlaylist.urlMap help s.pl (MpdCli.stop s.w env.stop).2 env.map = (some urlmap, pl, w) ∧
      Located help { s with pl := pl, w := w } env urlmap id t

/-- All of the steps of the configured play method succeed. -/
def StepsSucceed (s : ReceiverSystem) (env : IPlayEnv) : Prop :=
  s.Ready env ∧ env.start = .started ∧
    (s.rcv.m_pm = .mpd → ∃ id t,
      Prepared help (s.startExec .started) env id t ∧ (t.playId id env.play).1 = true)

/-- `iPlay` returns true only if all of its steps succeeded. When it returns false no subprocess
is running and the address is not in the queue. -/
def PlaysOrCleansUp (s : ReceiverSystem) (env : IPlayEnv) : Prop :=
  ((s.iPlay help env).1 = true → s.StepsSucceed help env) ∧
    ((s.iPlay help env).1 = false →
      ¬ (s.iPlay help env).2.Running ∧ ¬ (s.iPlay help env).2.Queued)

/-- `iStop` finds each song with the address, and MPD gets the command to delete it. -/
def CleansUp (s : ReceiverSystem) (env : ReceiverStopEnv) : Prop :=
  match s.rcv.m_pm with
  | .alsa => ¬ s.Queued
  | .mpd =>
      let (urlmap, _, w) := s.stopMap help env
      ∀ song ∈ w.mpd.queue.songs, song.uri = s.httpuri →
        ∃ pair ∈ (doomed urlmap s.httpuri).zip env.deletes,
          unsigned pair.1 = song.id ∧ pair.2.1.Reaches

/-- When there is nothing to start there is nothing to clean up. The command which is started
is found. In the MPD play method the steps before `playId` succeed. After the two failures which
are followed by `iStop`, the one of the start and the one of `playId`, it finds and deletes the
songs. -/
structure Covered (s : ReceiverSystem) (env : IPlayEnv) : Prop where
  unready : ¬ s.Ready env → ¬ s.Running ∧ ¬ s.Queued
  found : s.Ready env → env.start ≠ .notFound
  failed : s.Ready env → env.start = .failed →
    (s.startExec .failed).CleansUp help env.cleanUp
  prepared : s.Ready env → env.start = .started → s.rcv.m_pm = .mpd →
    ∃ id t, Prepared help (s.startExec .started) env id t ∧
      ((t.playId id env.play).1 = false → (t.playId id env.play).2.CleansUp help env.cleanUp)

variable {s t : ReceiverSystem} {env : IPlayEnv} {id : Int}

/-- What fits every new id or none is no condition on the id. -/
theorem takes_const_iff {env : CmdEnv} {p : Prop} : (env.Takes fun _ => p) ↔ env.Reaches ∧ p := by
  unfold CmdEnv.Reaches CmdEnv.Takes
  by_cases holds : p
  · simp [holds]
  · simp [holds]

/-- A deletion, with every outcome of its two attempts. -/
theorem mem_deleteId {env : CmdEnv} (alone : env.Alone) (w : World) (id : Int) (song : MpdSong) :
    song ∈ (MpdCli.deleteId w id env).2.mpd.queue.songs ↔
      song ∈ w.mpd.queue.songs ∧ ¬ (unsigned id = song.id ∧ env.Reaches) := by
  unfold MpdCli.deleteId
  rw [MpdCli.command_eq]
  let cmd (_ : Nat) (mpd : Mpd) : Option (Unit × Mpd) :=
    (mpd.deleteId (unsigned id)).map fun mpd => ((), mpd)
  show song ∈ (retryCmd env cmd w.mpd).2.queue.songs ↔ _
  have takes_iff : (env.Takes fun newid => cmd newid w.mpd ≠ none) ↔
      env.Reaches ∧ unsigned id ∈ w.mpd.queue.ids := by
    refine takes_const_iff.trans (and_congr_right fun _ => ?_)
    rw [ne_eq, Option.map_eq_none_iff, Mpd.deleteId_eq_none_iff, not_not]
  by_cases takes : env.Takes fun newid => cmd newid w.mpd ≠ none
  · obtain ⟨reaches, there⟩ := takes_iff.mp takes
    obtain ⟨mpd', done, deleted⟩ := Mpd.deleted_deleteId there
    have left := retryCmd_of_takes cmd
      (fun mpd => ∀ song, song ∈ mpd.queue.songs ↔
        song ∈ w.mpd.queue.songs ∧ ¬ unsigned id = song.id) alone ?_ ?_ takes
    · rw [left song, and_iff_left reaches]
    · rintro newid - result m executed song
      rw [show cmd newid w.mpd = some ((), mpd') by rw [← Option.map_some, ← done]] at executed
      cases executed
      rw [deleted.songs, List.mem_filter, decide_eq_true_iff, List.mem_singleton, eq_comm]
    · intro newid m result m' gone executed
      have absent : cmd newid m = none := by
        rw [Option.map_eq_none_iff, Mpd.deleteId_eq_none_iff]
        intro member
        obtain ⟨song, member, same⟩ := List.mem_map.mp member
        exact ((gone song).mp member).2 same.symm
      rw [absent] at executed
      cases executed
  · rw [(retryCmd_of_not_executed cmd alone takes).1]
    rw [takes_iff] at takes
    refine ⟨fun member => ⟨member, fun ⟨same, reaches⟩ => takes ⟨reaches, ?_⟩⟩, And.left⟩
    exact same ▸ List.mem_map_of_mem member

/-- What is left of the songs after the loop. -/
theorem mem_deleteIds (w : World) (ids : List Int) (envs : List {env : CmdEnv // env.Alone})
    (song : MpdSong) :
    song ∈ (deleteIds w ids envs).mpd.queue.songs ↔
      song ∈ w.mpd.queue.songs ∧
        ¬ ∃ pair ∈ ids.zip envs, unsigned pair.1 = song.id ∧ pair.2.1.Reaches := by
  induction ids generalizing w envs with
  | nil => simp [deleteIds]
  | cons id rest ih =>
      cases envs with
      | nil => simp [deleteIds]
      | cons env envs =>
          rw [deleteIds, ih, mem_deleteId env.2, List.zip_cons_cons, and_assoc, ← not_or]
          simp

theorem not_running_iStop (s : ReceiverSystem) (env : ReceiverStopEnv) :
    ¬ (s.iStop help env).Running := by
  have zapped : (s.iStop help env).rcv = s.zapChild.rcv := by
    unfold iStop
    dsimp only
    split
    · rfl
    · rfl
  rintro ⟨running, -⟩
  rw [zapped, zapChild, Songcast.running_zapChild s.held] at running
  cases running

theorem pm_zapChild (s : ReceiverSystem) : s.zapChild.rcv.m_pm = s.rcv.m_pm := by
  show s.rcv.zapChild.m_pm = s.rcv.m_pm
  unfold Songcast.zapChild
  cases s.rcv.m_cmd <;> rfl

/-- `iStop` leaves no song with the address just when it finds and deletes each of them. -/
theorem not_queued_iStop_iff (s : ReceiverSystem) (env : ReceiverStopEnv) :
    ¬ (s.iStop help env).Queued ↔ s.CleansUp help env := by
  unfold iStop CleansUp
  dsimp only
  rw [pm_zapChild]
  cases s.rcv.m_pm with
  | alsa => exact .rfl
  | mpd =>
      show (¬ ∃ song ∈ (deleteIds _ _ _).mpd.queue.songs, song.uri = s.httpuri) ↔ _
      simp only [mem_deleteIds]
      constructor
      · intro none song member same
        by_contra kept
        exact none ⟨song, ⟨member, kept⟩, same⟩
      · rintro all ⟨song, ⟨member, kept⟩, same⟩
        exact kept (all song member same)

/-- What the steps before `playId` come to. -/
theorem mpdPlay_of_prepared (prepared : Prepared help s env id t) :
    s.mpdPlay help env = t.playId id env.play := by
  obtain ⟨line, urlmap, pl, w, made, located⟩ := prepared
  unfold mpdPlay
  dsimp only
  refine (if_pos line).trans ?_
  rw [made]
  cases located with
  | there found => exact if_neg found
  | inserted missing parsed added =>
      refine (if_pos missing).trans ?_
      rw [parsed]
      exact if_neg added

/-- A step before `playId` which fails leaves the result of the start. -/
theorem mpdPlay_of_not_prepared (unprepared : ¬ ∃ id t, Prepared help s env id t) :
    (s.mpdPlay help env).1 = true := by
  unfold mpdPlay
  dsimp only
  split
  · rename_i line
    cases made : OHPlaylist.urlMap help s.pl (MpdCli.stop s.w env.stop).2 env.map with
    | mk urlmap rest =>
        cases urlmap with
        | none => rfl
        | some urlmap =>
            have located (id : Int) (t : ReceiverSystem) :
                ¬ Located help { s with pl := rest.1, w := rest.2 } env urlmap id t :=
              fun located => unprepared ⟨id, t, line, urlmap, rest.1, rest.2, made, located⟩
            dsimp only
            split
            · rename_i missing
              cases parsed : help.uMetaToUpSong (help.xmlUnquote s.rcv.m_metadata) with
              | none => rfl
              | some metaformpd =>
                  dsimp only
                  split
                  · rfl
                  · rename_i added
                    exact absurd (.inserted missing parsed added) (located _ _)
            · rename_i found
              exact absurd (.there found) (located _ _)
  · rfl

theorem iPlay_of_not_ready (unready : ¬ s.Ready env) : s.iPlay help env = (false, s) :=
  if_neg unready

/-- The end of `iPlay`. -/
theorem iPlay_of_failed (ready : s.Ready env) (failed : env.start = .failed) :
    s.iPlay help env = (false, (s.startExec .failed).iStop help env.cleanUp) := by
  unfold iPlay
  rw [if_pos ready, failed]
  rfl

theorem iPlay_of_started (ready : s.Ready env) (started : env.start ≠ .failed) :
    s.iPlay help env =
      let (ok, t) :=
        match s.rcv.m_pm with
        | .mpd => (s.startExec env.start).mpdPlay help env
        | .alsa => (true, s.startExec env.start)
      if ok then (true, t) else (false, t.iStop help env.cleanUp) := by
  have method : (s.startExec env.start).rcv.m_pm = s.rcv.m_pm := by
    rw [← pm_zapChild s]
    show (s.zapChild.rcv.startExec env.start).m_pm = _
    cases env.start <;> rfl
  unfold iPlay
  rw [if_pos ready]
  dsimp only
  rw [if_neg started, method]

/-- A command which is not found is taken for one which runs. -/
theorem iPlay_of_notFound (ready : s.Ready env) (missing : env.start = .notFound) :
    (s.iPlay help env).1 = true := by
  rw [iPlay_of_started help ready (by rw [missing]; decide), missing]
  have unprepared : ¬ ∃ id t, Prepared help (s.startExec .notFound) env id t :=
    fun ⟨_, _, line, _⟩ => Bool.false_ne_true line
  have result : (match s.rcv.m_pm with
      | .mpd => (s.startExec .notFound).mpdPlay help env
      | .alsa => (true, s.startExec .notFound)).1 = true := by
    cases s.rcv.m_pm with
    | mpd => exact mpdPlay_of_not_prepared help unprepared
    | alsa => rfl
  dsimp only
  rw [if_pos result]

theorem law_of_not_ready (unready : ¬ s.Ready env) :
    s.PlaysOrCleansUp help env ↔ s.Covered help env := by
  unfold PlaysOrCleansUp
  rw [iPlay_of_not_ready help unready]
  constructor
  · intro law
    exact ⟨fun _ => law.2 rfl, fun ready => absurd ready unready, fun ready => absurd ready unready,
      fun ready => absurd ready unready⟩
  · intro covered
    exact ⟨fun told => absurd told Bool.false_ne_true, fun _ => covered.unready unready⟩

theorem law_of_failed (ready : s.Ready env) (failed : env.start = .failed) :
    s.PlaysOrCleansUp help env ↔ s.Covered help env := by
  unfold PlaysOrCleansUp
  rw [iPlay_of_failed help ready failed, not_queued_iStop_iff]
  constructor
  · intro law
    refine ⟨fun unready => absurd ready unready, fun _ => by rw [failed]; decide,
      fun _ _ => (law.2 rfl).2, fun _ started => ?_⟩
    rw [failed] at started
    cases started
  · intro covered
    exact ⟨fun told => absurd told Bool.false_ne_true,
      fun _ => ⟨not_running_iStop help _ _, covered.failed ready failed⟩⟩

theorem law_of_notFound (ready : s.Ready env) (missing : env.start = .notFound) :
    s.PlaysOrCleansUp help env ↔ s.Covered help env := by
  refine iff_of_false ?_ fun covered => covered.found ready missing
  intro law
  obtain ⟨-, started, -⟩ := law.1 (iPlay_of_notFound help ready missing)
  rw [missing] at started
  cases started

theorem law_of_started (ready : s.Ready env) (started : env.start = .started) :
    s.PlaysOrCleansUp help env ↔ s.Covered help env := by
  have running := iPlay_of_started help ready (by rw [started]; decide)
  rw [started] at running
  have others (prepared : s.rcv.m_pm = .mpd → ∃ id t,
      Prepared help (s.startExec .started) env id t ∧
        ((t.playId id env.play).1 = false →
          (t.playId id env.play).2.CleansUp help env.cleanUp)) : s.Covered help env := by
    refine ⟨fun unready => absurd ready unready, fun _ => by rw [started]; decide,
      fun _ failed => ?_, fun _ _ => prepared⟩
    rw [started] at failed
    cases failed
  unfold PlaysOrCleansUp
  cases method : s.rcv.m_pm with
  | alsa =>
      rw [method] at running
      have plays : s.iPlay help env = (true, s.startExec .started) := running
      rw [plays]
      have other : s.rcv.m_pm ≠ .mpd := by
        rw [method]
        decide
      exact iff_of_true
        ⟨fun _ => ⟨ready, started, fun mpd => absurd mpd other⟩,
          fun told => absurd told.symm Bool.false_ne_true⟩
        (others fun mpd => absurd mpd other)
  | mpd =>
      rw [method] at running
      dsimp only at running
      by_cases prepared : ∃ id t, Prepared help (s.startExec .started) env id t
      · obtain ⟨id, t, prepared⟩ := prepared
        rw [mpdPlay_of_prepared help prepared] at running
        cases played : (t.playId id env.play).1 with
        | true =>
            rw [if_pos played] at running
            rw [running]
            refine iff_of_true
              ⟨fun _ => ⟨ready, started, fun _ => ⟨id, t, prepared, played⟩⟩,
                fun told => absurd told.symm Bool.false_ne_true⟩
              (others fun _ => ⟨id, t, prepared, fun failed => ?_⟩)
            rw [played] at failed
            cases failed
        | false =>
            rw [if_neg (by rw [played]; decide)] at running
            rw [running, not_queued_iStop_iff]
            constructor
            · intro law
              exact others fun _ => ⟨id, t, prepared, fun _ => (law.2 rfl).2⟩
            · intro covered
              refine ⟨fun told => absurd told Bool.false_ne_true,
                fun _ => ⟨not_running_iStop help _ _, ?_⟩⟩
              obtain ⟨id', t', prepared', cleans⟩ := covered.prepared ready started method
              have same := (mpdPlay_of_prepared help prepared).symm.trans
                (mpdPlay_of_prepared help prepared')
              rw [← same] at cleans
              exact cleans played
      · rw [if_pos (mpdPlay_of_not_prepared help prepared)] at running
        rw [running]
        refine iff_of_false (fun law => ?_) fun covered => ?_
        · obtain ⟨-, -, steps⟩ := law.1 rfl
          obtain ⟨id, t, found, -⟩ := steps method
          exact prepared ⟨id, t, found⟩
        · obtain ⟨id, t, found, -⟩ := covered.prepared ready started method
          exact prepared ⟨id, t, found⟩

/-- `iPlay` succeeds or cleans up just in the cases which are covered. -/
theorem playsOrCleansUp_iff (s : ReceiverSystem) (env : IPlayEnv) :
    s.PlaysOrCleansUp help env ↔ s.Covered help env := by
  by_cases ready : s.Ready env
  · cases start : env.start with
    | failed => exact law_of_failed help ready start
    | notFound => exact law_of_notFound help ready start
    | started => exact law_of_started help ready start
  · exact law_of_not_ready help ready

/-- The command is started, and does not write its line in time. -/
theorem not_playsOrCleansUp_silent :
    ¬ ∀ (help : ReceiverHelp) (s : ReceiverSystem) (env : IPlayEnv), s.PlaysOrCleansUp help env := by
  intro law
  let help : ReceiverHelp := ⟨.plain, fun _ => some [], id, fun _ => some {}⟩
  let s : ReceiverSystem := { rcv := { m_uri := "ohz://sender", m_metadata := "<DIDL/>" } }
  obtain ⟨-, -, steps⟩ := (law help s { line := false }).1 rfl
  obtain ⟨_, _, ⟨line, -⟩, -⟩ := steps rfl
  exact Bool.false_ne_true line

end ReceiverSystem

end Upmpdcli
