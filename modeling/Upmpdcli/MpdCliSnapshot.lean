import Upmpdcli.AVTransport
import Upmpdcli.Lib.Machine

set_option autoImplicit false

/- The current and the next song of the status record, which `updStatus` updates one after
the other, over a history of status requests and changes of MPD. -/
namespace Upmpdcli

/-- The current position is one of the queue. -/
def Mpd.Positioned (m : Mpd) : Prop := ∀ pos ∈ m.songpos, pos < m.queue.songs.length

instance (m : Mpd) : Decidable m.Positioned := inferInstanceAs (Decidable (∀ pos ∈ m.songpos, _))

/-- The entry of the queue at a position, as the program shows it. There may be none. -/
def Mpd.entryAt (m : Mpd) (pos : Nat) : UpSong :=
  ((m.queue.songs[pos]?).map (mapSong {})).getD {}

namespace MpdStatus

/-- The songs of the status are those of the queue. -/
structure Snapshot (stat : MpdStatus) (m : Mpd) : Prop where
  current : stat.currentsong = if stat.songpos < 0 then {} else m.entryAt stat.songpos.toNat
  next : stat.nextsong = if stat.songpos < 0 then {} else m.entryAt (stat.songpos + 1).toNat

/-- What the AVTransport service publishes of the next song, without its own queue. -/
def PublishesNext (stat : MpdStatus) (next : UpSong) : Prop :=
  ∀ (help : PlaylistHelp) (opts : AvtOptions) (avt : AVTransport) (ok radioPlaying : Bool)
    (ohcache : Option (List (String × String))), opts.ownQueue = false →
    (avt.tpstateMToU help opts stat ok radioPlaying ohcache).1.lookup
      "NextAVTransportURIMetaData" =
        some (if AVTransport.isSong stat then UpSong.didlmake help.soap next else "")

theorem publishesNext (stat : MpdStatus) : stat.PublishesNext stat.nextsong := by
  intro help opts avt ok radioPlaying ohcache notOwn
  show some (if opts.ownQueue then _ else _) = _
  rw [notOwn]
  rfl

/-- A song which has only been filled by `mapSong` keeps nothing of the songs before. -/
def Mapped (song : UpSong) : Prop := ∀ entry : MpdSong, mapSong song entry = mapSong {} entry

theorem mapped_empty : Mapped {} := fun _ => rfl

theorem Mapped.mapSong {song : UpSong} (mapped : Mapped song) (entry : MpdSong) :
    Mapped (mapSong song entry) := by
  intro other
  rw [mapped entry]
  rfl

theorem Mapped.statSong {song : UpSong} (mapped : Mapped song) (entry : Option MpdSong)
    (got : Bool) : Mapped (statSong song entry got) := by
  cases entry with
  | none => exact mapped
  | some entry =>
      cases got with
      | false => exact mapped
      | true => exact mapped.mapSong entry

theorem songs_updSongs (stat : MpdStatus) (m : Mpd) (env : StatusEnv) :
    (stat.updSongs m env).currentsong =
        (if stat.songpos ≥ 0 then
          statSong stat.currentsong (m.songpos.bind (m.queue.songs[·]?)) env.gotCurrent
        else {}) ∧
      (stat.updSongs m env).nextsong =
        (if stat.songpos ≥ 0 then
          statSong stat.nextsong m.queue.songs[(stat.songpos + 1).toNat]? env.gotNext
        else {}) ∧
      (stat.updSongs m env).songpos = stat.songpos := by
  unfold updSongs
  split
  · dsimp only
    split <;> exact ⟨rfl, rfl, rfl⟩
  · exact ⟨rfl, rfl, rfl⟩

/-- The two songs after a status request which is answered. `m` is the daemon when it
answers, and `m'` when the songs are read. -/
theorem songs_updStatus {w : World} {env : StatusEnv} (answered : env.answered = true)
    {m m' : Mpd} (before : w.mpd.edited env.before = m) (during : m.edited env.during = m') :
    let stat := (Upmpdcli.updStatus w env).1.cli.m_stat
    match m.songpos with
    | none => stat.songpos = -1 ∧ stat.currentsong = {} ∧ stat.nextsong = {}
    | some pos => stat.songpos = pos ∧
        stat.currentsong =
          statSong w.cli.m_stat.currentsong (m'.songpos.bind (m'.queue.songs[·]?)) env.gotCurrent ∧
        stat.nextsong = statSong w.cli.m_stat.nextsong m'.queue.songs[pos + 1]? env.gotNext := by
  unfold Upmpdcli.updStatus
  rw [if_pos answered, before, during]
  dsimp only
  generalize copied : (w.cli.m_stat.setVolume (if env.mixer = true then m.volume else -1)
    w.cli.m_cachedvolume).copyStatus m = stat
  have songpos : stat.songpos = (m.songpos.map Int.ofNat).getD (-1) := by rw [← copied]; rfl
  have current : stat.currentsong = w.cli.m_stat.currentsong := by rw [← copied]; rfl
  have next : stat.nextsong = w.cli.m_stat.nextsong := by rw [← copied]; rfl
  obtain ⟨current', next', songpos'⟩ := stat.songs_updSongs m' env
  rw [current', next', songpos', current, next, songpos]
  cases m.songpos with
  | none => exact ⟨rfl, rfl, rfl⟩
  | some pos => exact ⟨rfl, if_pos (Int.natCast_nonneg pos), if_pos (Int.natCast_nonneg pos)⟩

end MpdStatus

/-- A status request, and anything that happens to MPD. -/
inductive SnapshotAct
  | updStatus (env : StatusEnv)
  | mpd (changed : Mpd)

namespace SnapshotAct

def step (w : World) : SnapshotAct → Option (World × Bool)
  | .updStatus env => some (Upmpdcli.updStatus w env)
  | .mpd changed => some ({ w with mpd := changed }, true)

/-- A status request which succeeds, and during which nobody modifies MPD. -/
def Undisturbed (w : World) (env : StatusEnv) : Prop :=
  env.answered = true ∧ env.before = [] ∧ env.during = [] ∧ w.mpd.Positioned

instance (w : World) (env : StatusEnv) : Decidable (Undisturbed w env) :=
  inferInstanceAs (Decidable (_ ∧ _))

/-- What is wanted of a status request. -/
def Coherent (s : World) (action : SnapshotAct) (t : World) (_ : Bool) : Prop :=
  match action with
  | .updStatus env =>
      Undisturbed s env → t.cli.m_stat.Snapshot t.mpd ∧
        t.cli.m_stat.PublishesNext
          (if t.cli.m_stat.songpos < 0 then {}
          else t.mpd.entryAt (t.cli.m_stat.songpos + 1).toNat)
  | .mpd _ => True

/-- The condition on each step: MPD tells each of the two songs which are there, or the
status has it already, and behind the last entry the status has no next song yet. -/
def Told (s : World) (action : SnapshotAct) (_ : World) (_ : Bool) : Prop :=
  match action with
  | .updStatus env =>
      Undisturbed s env → ∀ pos ∈ s.mpd.songpos,
        (env.gotCurrent = true ∨ s.cli.m_stat.currentsong = s.mpd.entryAt pos) ∧
        if pos + 1 < s.mpd.queue.songs.length then
          env.gotNext = true ∨ s.cli.m_stat.nextsong = s.mpd.entryAt (pos + 1)
        else s.cli.m_stat.nextsong = {}
  | .mpd _ => True

instance (s t : World) (done : Bool) : ∀ action, Decidable (Told s action t done)
  | .updStatus env => inferInstanceAs (Decidable (Undisturbed s env → ∀ pos ∈ s.mpd.songpos, _))
  | .mpd _ => .isTrue trivial

/-- Both songs have been filled by `mapSong` only. -/
def SongsMapped (w : World) : Prop :=
  MpdStatus.Mapped w.cli.m_stat.currentsong ∧ MpdStatus.Mapped w.cli.m_stat.nextsong

theorem songsMapped_updStatus {w : World} (mapped : SongsMapped w) (env : StatusEnv) :
    SongsMapped (Upmpdcli.updStatus w env).1 := by
  by_cases answered : env.answered = true
  · have songs := MpdStatus.songs_updStatus (w := w) answered rfl rfl
    dsimp only at songs
    split at songs
    · obtain ⟨-, current, next⟩ := songs
      unfold SongsMapped
      rw [current, next]
      exact ⟨MpdStatus.mapped_empty, MpdStatus.mapped_empty⟩
    · obtain ⟨-, current, next⟩ := songs
      unfold SongsMapped
      rw [current, next]
      exact ⟨mapped.1.statSong _ _, mapped.2.statSong _ _⟩
  · unfold Upmpdcli.updStatus
    rw [if_neg answered]
    exact mapped

/-- What one read makes of a song of the status. -/
theorem statSong_eq_iff {song : UpSong} (mapped : MpdStatus.Mapped song) (m : Mpd) (pos : Nat)
    (got : Bool) :
    MpdStatus.statSong song m.queue.songs[pos]? got = m.entryAt pos ↔
      if pos < m.queue.songs.length then got = true ∨ song = m.entryAt pos else song = {} := by
  unfold Mpd.entryAt
  by_cases there : pos < m.queue.songs.length
  · rw [if_pos there, List.getElem?_eq_getElem there]
    cases got with
    | true =>
        simp only [MpdStatus.statSong, if_true, true_or, iff_true]
        exact mapped _
    | false => simp [MpdStatus.statSong]
  · rw [if_neg there, List.getElem?_eq_none (by omega)]
    exact Iff.rfl

/-- One status request. -/
theorem coherent_updStatus_iff {w : World} (mapped : SongsMapped w) (env : StatusEnv) (done : Bool) :
    Coherent w (.updStatus env) (Upmpdcli.updStatus w env).1 done ↔
      Told w (.updStatus env) (Upmpdcli.updStatus w env).1 done := by
  refine forall_congr' fun undisturbed => ?_
  obtain ⟨answered, before, during, positioned⟩ := undisturbed
  have mpd : (Upmpdcli.updStatus w env).1.mpd = w.mpd := by
    rw [mpd_updStatus, if_pos answered, before, during]
    rfl
  have same : w.mpd.edited env.before = w.mpd := by rw [before]; rfl
  have same' : w.mpd.edited env.during = w.mpd := by rw [during]; rfl
  have songs := MpdStatus.songs_updStatus answered same same'
  rw [mpd]
  generalize (Upmpdcli.updStatus w env).1.cli.m_stat = stat at songs ⊢
  dsimp only at songs
  cases held : w.mpd.songpos with
  | none =>
      rw [held] at songs
      obtain ⟨songpos, current, next⟩ := songs
      have stopped : stat.songpos < 0 := by omega
      refine iff_of_true ⟨⟨?_, ?_⟩, ?_⟩ (fun _ there => by cases there)
      · rw [if_pos stopped, current]
      · rw [if_pos stopped, next]
      · rw [if_pos stopped, ← next]
        exact stat.publishesNext
  | some pos =>
      rw [held] at songs
      obtain ⟨songpos, current, next⟩ := songs
      have within : pos < w.mpd.queue.songs.length := positioned pos held
      have started : ¬ stat.songpos < 0 := by omega
      have behind : (stat.songpos + 1).toNat = pos + 1 := by omega
      have here : stat.songpos.toNat = pos := by omega
      have first := statSong_eq_iff mapped.1 w.mpd pos env.gotCurrent
      have second := statSong_eq_iff mapped.2 w.mpd (pos + 1) env.gotNext
      rw [if_pos within] at first
      rw [if_neg started, behind]
      constructor
      · rintro ⟨snapshot, -⟩ other there
        cases there
        have read := snapshot.current
        have read' := snapshot.next
        rw [if_neg started, here, current] at read
        rw [if_neg started, behind, next] at read'
        exact ⟨first.mp read, second.mp read'⟩
      · intro told
        obtain ⟨got, got'⟩ := told pos rfl
        have read : stat.nextsong = w.mpd.entryAt (pos + 1) := next.trans (second.mpr got')
        refine ⟨⟨?_, ?_⟩, ?_⟩
        · rw [if_neg started, here, current]
          exact first.mpr got
        · rw [if_neg started, behind, read]
        · rw [← read]
          exact stat.publishesNext

/-- In every run, each status request leaves the songs of the queue in the status if and
only if each meets the condition. -/
theorem coherent_iff (mpd : Mpd) (actions : List SnapshotAct) :
    Machine.Along Coherent step { mpd := mpd } actions ↔
      Machine.Along Told step { mpd := mpd } actions := by
  have start : SongsMapped { mpd := mpd } := ⟨MpdStatus.mapped_empty, MpdStatus.mapped_empty⟩
  refine Machine.along_iff_of_invariant ?_ _ actions start
  intro s action t done mapped taken
  cases action with
  | updStatus env =>
      obtain ⟨rfl, -⟩ := Prod.mk.inj (Option.some.inj taken)
      exact ⟨coherent_updStatus_iff mapped env _, fun _ => songsMapped_updStatus mapped env⟩
  | mpd changed =>
      cases taken
      exact ⟨Iff.rfl, fun _ => mapped⟩

/-- MPD goes on to the last song of its queue: the status keeps this song as the next one. -/
theorem last_not_coherent :
    let songs : MpdQueue :=
      ⟨[{ id := 1, uri := "http://h/a" }, { id := 2, uri := "http://h/b" }], by decide, by decide⟩
    let first : Mpd := { queue := songs, state := .play, songpos := some 0 }
    ¬ Machine.Along Coherent step { mpd := first }
        [.updStatus {}, .mpd { first with songpos := some 1 }, .updStatus {}] := by
  intro songs first
  rw [coherent_iff]
  decide

end SnapshotAct

end Upmpdcli
