import Upmpdcli.AVTransportAtomic
import Upmpdcli.MpdCliSnapshot

set_option autoImplicit false

/- What `setAVTransportURI` does to the transport state, and which song MPD plays after it. -/
namespace Upmpdcli

namespace Mpd

def currentSong (m : Mpd) : Option MpdSong := m.songpos.bind (m.queue.songs[·]?)

/-- A stopped MPD may have a current song or none. It has one when it plays or pauses. -/
structure Sound (m : Mpd) : Prop where
  known : m.state ≠ .unk
  positioned : m.Positioned
  somewhere : m.state = .play ∨ m.state = .pause → m.songpos ≠ none

/-- What the deletion of the songs with these ids does. -/
structure Deleted (ids : List Nat) (m m' : Mpd) : Prop where
  songs : m'.queue.songs = m.queue.songs.filter (·.id ∉ ids)
  kept : ∀ song ∈ m.currentSong, song.id ∉ ids →
    m'.state = m.state ∧ m'.currentSong = some song
  stopped : m.state = .stop → m'.state = .stop ∧
    ((m.songpos = none ∨ ∃ song ∈ m.currentSong, song.id ∈ ids) → m'.songpos = none)
  paused : m.state = .pause → (∃ song ∈ m.currentSong, song.id ∈ ids) → m'.state = .stop

theorem songpos_of_currentSong {m : Mpd} {song : MpdSong} (current : m.currentSong = some song) :
    ∃ pos, m.songpos = some pos ∧ m.queue.songs[pos]? = some song :=
  Option.bind_eq_some_iff.mp current

theorem deleted_none {m : Mpd} {ids : List Nat} (absent : ∀ id ∈ m.queue.ids, id ∉ ids) :
    m.Deleted ids m := by
  have here {song : MpdSong} (current : song ∈ m.currentSong) : song.id ∉ ids := by
    obtain ⟨pos, -, there⟩ := songpos_of_currentSong current
    exact absent song.id (List.mem_map_of_mem (List.mem_of_getElem? there))
  refine ⟨?_, fun song current _ => ⟨rfl, current⟩, fun stopped => ⟨stopped, ?_⟩, ?_⟩
  · refine (List.filter_eq_self.mpr fun song member => ?_).symm
    exact decide_eq_true (absent song.id (List.mem_map_of_mem member))
  · rintro (nowhere | ⟨song, current, gone⟩)
    · exact nowhere
    · exact absurd gone (here current)
  · rintro - ⟨song, current, gone⟩
    exact absurd gone (here current)

theorem Deleted.trans {ids ids' : List Nat} {m m' m'' : Mpd} (first : m.Deleted ids m')
    (second : m'.Deleted ids' m'') : m.Deleted (ids ++ ids') m'' := by
  have split {id : Nat} : id ∉ ids ++ ids' ↔ id ∉ ids ∧ id ∉ ids' := by
    rw [List.mem_append, not_or]
  refine ⟨?_, ?_, ?_, ?_⟩
  · rw [second.songs, first.songs, List.filter_filter]
    refine List.filter_congr fun song _ => ?_
    rw [← Bool.decide_and]
    exact decide_eq_decide.mpr (and_comm.trans split.symm)
  · intro song current stays
    obtain ⟨here, there⟩ := split.mp stays
    obtain ⟨state, current'⟩ := first.kept song current here
    obtain ⟨state', current''⟩ := second.kept song current' there
    exact ⟨state'.trans state, current''⟩
  · intro stopped
    obtain ⟨stopped', nowhere⟩ := first.stopped stopped
    obtain ⟨stopped'', nowhere'⟩ := second.stopped stopped'
    refine ⟨stopped'', ?_⟩
    rintro (none | ⟨song, current, gone⟩)
    · exact nowhere' (.inl (nowhere (.inl none)))
    · by_cases here : song.id ∈ ids
      · exact nowhere' (.inl (nowhere (.inr ⟨song, current, here⟩)))
      · have current' := (first.kept song current here).2
        exact nowhere' (.inr ⟨song, current', (List.mem_append.mp gone).resolve_left here⟩)
  · rintro paused ⟨song, current, gone⟩
    by_cases here : song.id ∈ ids
    · exact (second.stopped (first.paused paused ⟨song, current, here⟩)).1
    · obtain ⟨state, current'⟩ := first.kept song current here
      exact second.paused (state.trans paused)
        ⟨song, current', (List.mem_append.mp gone).resolve_left here⟩

end Mpd

/-- Without the song in this place, the queue is the one without its id. -/
theorem MpdQueue.songs_removeRange_one {q : MpdQueue} {place : Nat} {song : MpdSong}
    (there : q.songs[place]? = some song) :
    (q.removeRange place (place + 1)).songs = q.songs.filter (·.id ∉ [song.id]) := by
  obtain ⟨inside, same⟩ := List.getElem?_eq_some_iff.mp there
  have cut : q.songs = q.songs.take place ++ song :: q.songs.drop (place + 1) := by
    rw [← same, List.cons_getElem_drop_succ, List.take_append_drop]
  have distinct := q.distinct
  rw [cut, List.map_append, List.map_cons, List.nodup_append, List.nodup_cons] at distinct
  have stays {songs : List MpdSong} (absent : ∀ other ∈ songs, other.id ≠ song.id) :
      songs.filter (·.id ∉ [song.id]) = songs := by
    refine List.filter_eq_self.mpr fun other member => ?_
    simpa using absent other member
  show q.songs.take place ++ (q.songs.drop place).drop (place + 1 - place) = _
  conv => rhs; rw [cut]
  rw [List.filter_append, List.filter_cons_of_neg (by simp), stays, stays, List.drop_drop,
    Nat.add_sub_cancel_left]
  · intro other member same
    exact distinct.2.1.1 (same ▸ List.mem_map_of_mem member)
  · intro other member same
    exact distinct.2.2 _ (List.mem_map_of_mem member) song.id List.mem_cons_self same

namespace Mpd

theorem songs_removeRange_eraseIdx (q : MpdQueue) (place : Nat) :
    (q.removeRange place (place + 1)).songs = q.songs.eraseIdx place := by
  show q.songs.take place ++ (q.songs.drop place).drop (place + 1 - place) = _
  rw [List.eraseIdx_eq_take_drop_succ, List.drop_drop, Nat.add_sub_cancel_left]

/-- A deletion when the player is at the song which is deleted. -/
theorem deleteRange_current {m m' : Mpd} {place : Nat} (current : m.songpos = some place)
    (deleted : m.deleteRange place (place + 1) = some m') :
    (m.state = .stop → m'.state = .stop ∧ m'.songpos = none) ∧
      (m.state = .pause → m'.state = .stop) := by
  unfold deleteRange at deleted
  split at deleted
  · rw [current] at deleted
    dsimp only at deleted
    rw [if_neg (Nat.lt_irrefl _), if_pos (Nat.lt_succ_self _)] at deleted
    cases deleted
    unfold leaveDeleted
    have same : (m.setQueue (m.queue.removeRange place (place + 1))).state = m.state := rfl
    constructor
    · intro stopped
      rw [same, stopped]
      exact ⟨rfl, rfl⟩
    · intro paused
      rw [same, paused]
      rfl
  · cases deleted

theorem deleted_deleteId {m : Mpd} {id : Nat} (there : id ∈ m.queue.ids) :
    ∃ m', m.deleteId id = some m' ∧ m.Deleted [id] m' := by
  obtain ⟨place, found⟩ := Option.isSome_iff_exists.mp (List.isSome_idxOf?.mpr there)
  obtain ⟨inside, same, -⟩ := List.idxOf?_eq_some_iff.mp found
  obtain ⟨song, here, rfl⟩ : ∃ song, m.queue.songs[place]? = some song ∧ song.id = id := by
    rw [MpdQueue.length_ids] at inside
    exact ⟨_, List.getElem?_eq_getElem inside, by simpa [MpdQueue.ids] using same⟩
  obtain ⟨m', deleted⟩ := m.deleteRange_of_lt (place + 1) (by rwa [← MpdQueue.length_ids])
  obtain ⟨-, queue, outside⟩ := deleteRange_spec deleted
  have elsewhere : m.songpos ≠ some place → m'.state = m.state ∧
      m'.songpos = m.songpos.map fun current => if current < place then current else current - 1 := by
    intro away
    have kept := outside fun pos at_ => by
      have other : pos ≠ place := fun same => away (same ▸ at_)
      omega
    rwa [Nat.add_sub_cancel_left] at kept
  have current_iff : m.songpos = some place ↔ ∃ other ∈ m.currentSong, other.id ∈ [song.id] := by
    constructor
    · intro current
      exact ⟨song, Option.bind_eq_some_iff.mpr ⟨place, current, here⟩, List.mem_singleton_self _⟩
    · rintro ⟨other, current, same⟩
      obtain ⟨pos, at_, there'⟩ := songpos_of_currentSong current
      have ids : (m.queue.songs.map MpdSong.id)[pos]? = (m.queue.songs.map MpdSong.id)[place]? := by
        rw [List.getElem?_map, List.getElem?_map, here, there', Option.map_some, Option.map_some,
          List.mem_singleton.mp same]
      have listed := (List.getElem?_eq_some_iff.mp there').1
      rw [at_, (List.getElem?_inj (by rwa [List.length_map]) m.queue.distinct).mp ids]
  refine ⟨m', ?_, ?_, ?_, ?_, ?_⟩
  · rw [deleteId, found]
    exact deleted
  · rw [queue, MpdQueue.songs_removeRange_one here]
  · intro other current stays
    obtain ⟨pos, at_, there'⟩ := songpos_of_currentSong current
    have away : pos ≠ place := by
      rintro rfl
      cases there'.symm.trans here
      exact stays (List.mem_singleton_self _)
    obtain ⟨state, songpos⟩ := elsewhere fun same => away (Option.some.inj (at_.symm.trans same))
    refine ⟨state, ?_⟩
    rw [currentSong, songpos, at_, queue, songs_removeRange_eraseIdx, Option.map_some,
      Option.bind_some, List.getElem?_eraseIdx]
    by_cases before : pos < place
    · rw [if_pos before, if_pos before]
      exact there'
    · rw [if_neg before, if_neg (by omega), Nat.sub_add_cancel (by omega)]
      exact there'
  · intro stopped
    by_cases current : m.songpos = some place
    · obtain ⟨stopped', nowhere⟩ := (deleteRange_current current deleted).1 stopped
      exact ⟨stopped', fun _ => nowhere⟩
    · obtain ⟨state, songpos⟩ := elsewhere current
      refine ⟨state.trans stopped, ?_⟩
      rintro (none | gone)
      · rw [songpos, none]
        rfl
      · exact absurd (current_iff.mpr gone) current
  · intro paused gone
    exact (deleteRange_current (current_iff.mpr gone) deleted).2 paused

/-- The queue has got a new song in this place, and the current one is still the same. -/
structure Gained (pos : Nat) (new : MpdSong) (m m' : Mpd) : Prop where
  within : pos ≤ m.queue.songs.length
  songs : m'.queue.songs = m.queue.songs.insertIdx pos new
  nowhere : m.songpos = none → m'.songpos = none
  current : ∀ song ∈ m.currentSong, m'.currentSong = some song

/-- The song which is played after a `play`. Without the special modes MPD starts with the
first song when it has no current one. -/
def track (m : Mpd) : Option MpdSong := (m.play 0).bind currentSong

theorem track_of_currentSong {m : Mpd} {song : MpdSong} (current : m.currentSong = some song) :
    m.track = some song := by
  obtain ⟨pos, at_, there⟩ := songpos_of_currentSong current
  unfold track play
  rw [at_, Option.bind_some]
  exact there

theorem track_of_nowhere {m : Mpd} (nowhere : m.songpos = none) :
    m.track = m.queue.songs.head? := by
  unfold track play
  rw [nowhere]
  dsimp only
  cases songs : m.queue.songs with
  | nil =>
      rw [if_pos rfl, Option.bind_some, currentSong, nowhere]
      rfl
  | cons song rest =>
      have inside : 0 < m.queue.songs.length := by
        rw [songs]
        exact Nat.zero_lt_succ _
      rw [if_neg (List.cons_ne_nil _ _), playPos, if_pos inside, Option.bind_some]
      exact (congrArg (·[0]?) songs).trans rfl

end Mpd

namespace AVTransport

/-- What is wanted of the action: MPD stays in its state, and this uri is the one which it
plays, or will play. -/
structure SetsTrack (uri : String) (m m' : Mpd) : Prop where
  state : m'.state = m.state
  track : m'.track.map (·.uri) = some uri

/-- The service has inserted this song, and deletes it. -/
def Inserted (avt : AVTransport) (song : MpdSong) : Prop := song.id ∈ avt.m_songids.map unsigned

instance (avt : AVTransport) : DecidablePred avt.Inserted := fun _ =>
  inferInstanceAs (Decidable (_ ∈ _))

/-- The current song, when it is not one of the songs the service has inserted. -/
def foreignSong (avt : AVTransport) (m : Mpd) : Option MpdSong :=
  m.currentSong.filter fun song => ¬ avt.Inserted song

/-- The first of the songs which stay in front of the new one. -/
def songInFront (avt : AVTransport) (w : World) : Option MpdSong :=
  ((w.mpd.queue.songs.take w.cli.m_stat.songpos.toNat).filter fun song => ¬ avt.Inserted song).head?

/-- A playing MPD goes on with the new song. A paused one stays at its song, which must be
the wanted one and must not be deleted. A stopped one must have no other song to start with. -/
def KeepsState (opts : AvtOptions) (avt : AVTransport) (w : World) (uri : String) : Prop :=
  match w.mpd.state with
  | .play => w.cli.m_stat.state = .play
  | .pause =>
      w.cli.m_stat.state = .pause ∧ opts.ownQueue = false ∧
        (avt.foreignSong w.mpd).map (·.uri) = some uri
  | .stop | .unk =>
      w.cli.m_stat.state ≠ .play ∧ (opts.ownQueue = false →
        ∀ song ∈ (avt.foreignSong w.mpd).or (avt.songInFront w), song.uri = uri)

section Smooth

variable {env : SetUriEnv} (smooth : env.Smooth)

include smooth

theorem prepared_smooth (opts : AvtOptions) (w : World) :
    (prepared opts w false env).mpd =
      { (if opts.ownQueue then w.mpd.clear else w.mpd) with
        rept := false, random := false, single := false
        consume := opts.keepconsume && w.mpd.consume } := by
  unfold prepared
  simp only [resetModes_smooth smooth, Bool.false_eq_true, false_and, if_false]
  cases opts.ownQueue with
  | true =>
      simp only [Bool.not_false, Bool.and_self, if_true, MpdCli.clearQueue,
        MpdCli.command_smooth smooth.clear]
      rfl
  | false => rfl

/-- The player after the new song has been inserted at `curpos`. -/
theorem startTrack_manual {opts : AvtOptions} (manual : opts.autoplay = false) {w : World}
    (st : PlayState) {curpos : Nat} (within : curpos < w.mpd.queue.songs.length) :
    (startTrack opts w st curpos env).mpd =
      match st with
      | .play => { w.mpd with state := .play, songpos := some curpos, elapsedms := 0 }
      | .pause => w.mpd.setPause true
      | .stop => w.mpd.stop
      | .unk => w.mpd := by
  unfold startTrack
  rw [if_neg (by simp [manual])]
  cases st with
  | play =>
      have played : (if (curpos : Int) ≥ 0 then w.mpd.playPos (unsigned curpos)
          else w.mpd.play env.play.cmd.first.newid) =
            some { w.mpd with state := .play, songpos := some curpos, elapsedms := 0 } := by
        rw [if_pos (by omega)]
        exact if_pos within
      dsimp only
      rw [MpdCli.mpd_play smooth.play, (MpdCli.mpd_command_of_some smooth.play.1 played).2]
  | pause => exact (MpdCli.mpd_command_of_some smooth.pause rfl).2
  | stop => exact (MpdCli.mpd_command_of_some smooth.stop rfl).2
  | unk => rfl

end Smooth

/-- The old songs are deleted one after the other. -/
theorem cleanSongids_smooth (w : World) {songids : List Int} {envs : List (Bool × CmdEnv)}
    (enough : envs.length = songids.length) (smooth : ∀ e ∈ envs, e.1 = true ∧ e.2.Smooth) :
    w.mpd.Deleted (songids.map unsigned) (cleanSongids w songids envs).mpd := by
  induction songids generalizing w envs with
  | nil => exact Mpd.deleted_none fun _ _ member => nomatch member
  | cons id rest ih =>
      match envs, enough with
      | (answered, env) :: envs, enough =>
          obtain ⟨⟨rfl, quiet⟩, later⟩ := List.forall_mem_cons.mp smooth
          have once : w.mpd.Deleted [unsigned id]
              (if MpdCli.statId w id true then (MpdCli.deleteId w id env).2 else w).mpd := by
            unfold MpdCli.statId
            rw [Bool.true_and]
            split
            · rename_i found
              obtain ⟨m, done, deleted⟩ := Mpd.deleted_deleteId (List.contains_iff_mem.mp found)
              unfold MpdCli.deleteId
              rw [(MpdCli.mpd_command_of_some quiet done).2]
              exact deleted
            · rename_i absent
              refine Mpd.deleted_none fun other there same => absent ?_
              rw [← List.mem_singleton.mp same]
              exact List.contains_iff_mem.mpr there
          exact once.trans (ih _ (Nat.succ.inj enough) later)

end AVTransport

namespace MpdCli

/-- A new song does not move the current one. -/
theorem insert_song {env : InsertEnv} (smooth : env.Smooth) (w : World) (uri : String)
    (pos : Nat) (song : UpSong) (inserted : ¬ (insert w uri pos song env).1 < 0) :
    let m := (insert w uri pos song env).2.mpd
    ∃ new : MpdSong, new.id = env.add.first.newid ∧ new.uri = uri ∧ m.state = w.mpd.state ∧
      w.mpd.Gained pos new m := by
  obtain ⟨id, mpd, added, same⟩ := mpd_insert_smooth smooth w uri pos song inserted
  have tags := smooth.2.1
  obtain ⟨fresh, within⟩ := Mpd.addId_ne_none_iff.mp (added ▸ Option.some_ne_none _)
  obtain ⟨rfl, queue, put, rfl⟩ := (Mpd.addId_eq_some_iff _ _ uri pos _ id).mp added
  have tagged := player_sendTagData w.cli env.add.first.newid song tags
    { w.mpd.setQueue queue with
      songpos := w.mpd.songpos.map fun current => if pos ≤ current then current + 1 else current }
  have songs : w.mpd.queue.Inserted (sendTagData w.cli env.add.first.newid song env.tags
      { w.mpd.setQueue queue with
        songpos := w.mpd.songpos.map fun current =>
          if pos ≤ current then current + 1 else current }).queue
      pos env.add.first.newid uri :=
    inserted_sendTagData fresh w.cli song tags ⟨_, rfl, rfl, (MpdQueue.songs_insertAt put).1⟩
  dsimp only
  rw [same]
  generalize sendTagData w.cli env.add.first.newid song env.tags _ = m at tagged songs ⊢
  obtain ⟨player, -, songpos⟩ := tagged
  obtain ⟨new, named, located, songs⟩ := songs
  dsimp only at songpos ⊢
  refine ⟨new, named, located, player.state, within, songs, player.nowhere ∘ fun nowhere => ?_, ?_⟩
  · dsimp only
    rw [nowhere]
    rfl
  · intro current here
    obtain ⟨place, at_, there⟩ := Mpd.songpos_of_currentSong here
    rw [at_, Option.map_some] at songpos
    rw [Mpd.currentSong, songpos, Option.bind_some, songs]
    by_cases behind : pos ≤ place
    · rw [if_pos behind, List.getElem?_insertIdx_of_gt (by omega), Nat.add_sub_cancel]
      exact there
    · rw [if_neg behind, List.getElem?_insertIdx_of_lt (by omega)]
      exact there

end MpdCli

namespace Mpd

theorem head?_filter_insertIdx {songs : List MpdSong} {pos : Nat} {new : MpdSong}
    {p : MpdSong → Bool} (within : pos ≤ songs.length) (stays : p new = true) :
    ((songs.insertIdx pos new).filter p).head? = (((songs.take pos).filter p).head?).or (some new) := by
  induction songs generalizing pos with
  | nil =>
      rw [Nat.le_zero.mp within]
      simp [stays]
  | cons song rest ih =>
      cases pos with
      | zero => simp [stays]
      | succ pos =>
          rw [List.insertIdx_succ_cons, List.take_succ_cons]
          by_cases first : p song = true
          · rw [List.filter_cons_of_pos first, List.filter_cons_of_pos first]
            rfl
          · rw [List.filter_cons_of_neg first, List.filter_cons_of_neg first]
            exact ih (Nat.le_of_succ_le_succ within)

theorem exists_current {m : Mpd} (positioned : m.Positioned) (somewhere : m.songpos ≠ none) :
    ∃ song, m.currentSong = some song := by
  obtain ⟨pos, there⟩ := Option.ne_none_iff_exists'.mp somewhere
  have inside := positioned pos there
  exact ⟨m.queue.songs[pos],
    Option.bind_eq_some_iff.mpr ⟨pos, there, List.getElem?_eq_getElem inside⟩⟩

end Mpd

namespace AVTransport

variable {avt : AVTransport} {w : World} {m m' : Mpd} {pos : Nat} {new : MpdSong}

theorem foreignSong_eq_some {song : MpdSong} :
    avt.foreignSong m = some song ↔ m.currentSong = some song ∧ ¬ avt.Inserted song := by
  unfold foreignSong
  rw [Option.filter_eq_some_iff, decide_eq_true_eq]

/-- A stopped player, which has got the new song and lost the old ones. -/
theorem stopped_track (positioned : w.mpd.Positioned)
    (gained : w.mpd.Gained w.cli.m_stat.songpos.toNat new m) (stays : ¬ avt.Inserted new)
    (stopped : m.state = .stop) (deleted : m.Deleted (avt.m_songids.map unsigned) m') :
    m'.state = .stop ∧ (m'.track.map (·.uri) = some new.uri ↔
      ∀ song ∈ (avt.foreignSong w.mpd).or (avt.songInFront w), song.uri = new.uri) := by
  obtain ⟨stopped', nowhere⟩ := deleted.stopped stopped
  refine ⟨stopped', ?_⟩
  cases foreign : avt.foreignSong w.mpd with
  | some song =>
      obtain ⟨here, kept⟩ := foreignSong_eq_some.mp foreign
      rw [Mpd.track_of_currentSong (deleted.kept song (gained.current song here) kept).2]
      simp
  | none =>
      have none' : m'.songpos = none := by
        apply nowhere
        by_cases somewhere : w.mpd.songpos = none
        · exact .inl (gained.nowhere somewhere)
        · obtain ⟨song, here⟩ := Mpd.exists_current positioned somewhere
          refine .inr ⟨song, gained.current song here, ?_⟩
          by_contra kept
          exact absurd (foreignSong_eq_some.mpr ⟨here, kept⟩) (by rw [foreign]; exact nofun)
      have front : m'.track = (avt.songInFront w).or (some new) := by
        rw [Mpd.track_of_nowhere none', deleted.songs, gained.songs]
        exact Mpd.head?_filter_insertIdx gained.within (decide_eq_true stays)
      rw [front]
      cases avt.songInFront w with
      | none => simp
      | some song => simp

/-- A paused player is not at the new song. -/
theorem paused_track {song : MpdSong} (here : w.mpd.currentSong = some song)
    (gained : w.mpd.Gained pos new m) (paused : m.state = .pause)
    (deleted : m.Deleted (avt.m_songids.map unsigned) m') :
    m'.state ≠ .play ∧ (m'.state = .pause ∧ m'.track.map (·.uri) = some new.uri ↔
      (avt.foreignSong w.mpd).map (·.uri) = some new.uri) := by
  have here' := gained.current song here
  by_cases gone : avt.Inserted song
  · have stopped := deleted.paused paused ⟨song, here', gone⟩
    have foreign : avt.foreignSong w.mpd = none := by
      rw [Option.eq_none_iff_forall_ne_some]
      intro other there
      obtain ⟨same, kept⟩ := foreignSong_eq_some.mp there
      cases here.symm.trans same
      exact kept gone
    rw [stopped, foreign]
    simp
  · obtain ⟨state, current⟩ := deleted.kept song here' gone
    rw [state, paused, Mpd.track_of_currentSong current, foreignSong_eq_some.mpr ⟨here, gone⟩]
    simp

section Action

variable {help : PlaylistHelp} {opts : AvtOptions} {uri metadata : Option String}
  {morphed : String} {env : SetUriEnv}

theorem insertTrack_success {data : String} {song : UpSong} {st : PlayState} {curpos : Nat}
    (succeeded : (insertTrack opts avt w false morphed data song st curpos env).1 = .success) :
    let inserted := MpdCli.insert w morphed (curpos : Int) song env.insert
    let started := startTrack opts inserted.2 st curpos env
    ¬ inserted.1 < 0 ∧
      (insertTrack opts avt w false morphed data song st curpos env).2.2 =
        if opts.ownQueue then started else cleanSongids started avt.m_songids env.clean := by
  unfold insertTrack at succeeded ⊢
  simp only [Bool.false_eq_true, if_false] at succeeded ⊢
  by_cases negative : (MpdCli.insert w morphed (curpos : Int) song env.insert).1 < 0
  · rw [if_pos negative] at succeeded
    cases succeeded
  · rw [if_neg negative]
    refine ⟨negative, ?_⟩
    cases opts.ownQueue with
    | true => rfl
    | false => rfl

/-- The world the action leaves when it succeeds. -/
theorem setAVTransportURI_success {nocheck : Bool}
    (known : uri.bind help.morphSpecialUrl = some (morphed, nocheck))
    (succeeded : (avt.setAVTransportURI help opts w false uri metadata env).1 = .success) :
    ∃ song,
      let curpos := insertPlace opts w false
      let inserted := MpdCli.insert (prepared opts w false env) morphed curpos song env.insert
      let started := startTrack opts inserted.2 w.cli.m_stat.state curpos env
      ¬ inserted.1 < 0 ∧
        (avt.setAVTransportURI help opts w false uri metadata env).2.2 =
          if opts.ownQueue then started else cleanSongids started avt.m_songids env.clean := by
  cases accepted : accepts help uri metadata with
  | false =>
      rw [setAVTransportURI_of_refused help avt w env false accepted] at succeeded
      cases succeeded
  | true =>
      obtain ⟨morphed', _, song, known', same⟩ := setAVTransportURI_eq accepted opts avt w false env
      cases known.symm.trans known'
      rw [same, if_neg fun both => nomatch both.1] at succeeded ⊢
      exact ⟨song, insertTrack_success succeeded⟩

/-- With its own queue the service stops MPD, and the new song is the only one. -/
theorem own_track (smooth : env.Smooth) (manual : opts.autoplay = false)
    (own : opts.ownQueue = true) {song : UpSong} (st : PlayState)
    (inserted : ¬ (MpdCli.insert (prepared opts w false env) morphed ((0 : Nat) : Int) song
      env.insert).1 < 0) :
    let m := (startTrack opts (MpdCli.insert (prepared opts w false env) morphed ((0 : Nat) : Int)
      song env.insert).2 st 0 env).mpd
    m.state = (if st = .play then .play else .stop) ∧ m.track.map (·.uri) = some morphed := by
  obtain ⟨new, -, uri, state, gained⟩ := MpdCli.insert_song smooth.insert _ morphed 0 song inserted
  rw [prepared_smooth smooth, own, if_pos rfl] at state gained
  generalize (MpdCli.insert _ morphed _ song env.insert).2 = inserted at state gained ⊢
  have songs := gained.songs
  change _ = [new] at songs
  have stopped {m : Mpd} (same : m.queue.songs = [new]) (nowhere : m.songpos = none) :
      m.track.map (·.uri) = some morphed := by
    rw [Mpd.track_of_nowhere nowhere, same, ← uri]
    rfl
  dsimp only
  rw [startTrack_manual smooth manual st (by rw [songs]; exact Nat.zero_lt_one)]
  have nowhere := gained.nowhere rfl
  cases st with
  | play =>
      refine ⟨rfl, ?_⟩
      have current : ({ inserted.mpd with
          state := .play, songpos := some 0, elapsedms := 0 } : Mpd).currentSong = some new :=
        congrArg (·[0]?) songs
      rw [Mpd.track_of_currentSong current, ← uri]
      rfl
  | pause =>
      refine ⟨?_, stopped songs nowhere⟩
      exact if_pos state
  | stop => exact ⟨rfl, stopped songs nowhere⟩
  | unk => exact ⟨state, stopped songs nowhere⟩

/-- With a queue which others use too, the old songs are deleted after the player has started. -/
theorem shared_track {st : PlayState} (sound : w.mpd.Sound) (known : st ≠ .unk)
    (status : st = w.cli.m_stat.state) (shared : opts.ownQueue = false)
    (smooth : env.Smooth) (manual : opts.autoplay = false) {inserted : World}
    (gained : w.mpd.Gained w.cli.m_stat.songpos.toNat new inserted.mpd)
    (same : inserted.mpd.state = w.mpd.state) (stays : ¬ avt.Inserted new)
    (deleted : (startTrack opts inserted st w.cli.m_stat.songpos.toNat env).mpd.Deleted
      (avt.m_songids.map unsigned) m) :
    SetsTrack new.uri w.mpd m ↔ avt.KeepsState opts w new.uri := by
  have sets : SetsTrack new.uri w.mpd m ↔
      m.state = w.mpd.state ∧ m.track.map (·.uri) = some new.uri :=
    ⟨fun set => ⟨set.state, set.track⟩, fun ⟨state, track⟩ => ⟨state, track⟩⟩
  have songs := gained.songs
  have within : w.cli.m_stat.songpos.toNat < inserted.mpd.queue.songs.length := by
    rw [songs, List.length_insertIdx_of_le_length gained.within]
    exact Nat.lt_succ_of_le gained.within
  rw [startTrack_manual smooth manual st within] at deleted
  rw [sets]
  unfold KeepsState
  rw [← status]
  cases st with
  | play =>
      have current : ({ inserted.mpd with
          state := .play, songpos := some w.cli.m_stat.songpos.toNat
          elapsedms := 0 } : Mpd).currentSong = some new := by
        show inserted.mpd.queue.songs[_]? = some new
        rw [songs, List.getElem?_insertIdx_self, if_pos gained.within]
      obtain ⟨state, current'⟩ := deleted.kept new current stays
      rw [state, Mpd.track_of_currentSong current']
      cases w.mpd.state <;> simp
  | pause =>
      have gained' : w.mpd.Gained w.cli.m_stat.songpos.toNat new (inserted.mpd.setPause true) :=
        ⟨gained.within, gained.songs, gained.nowhere, gained.current⟩
      have started : (inserted.mpd.setPause true).state =
          if w.mpd.state = .stop then .stop else .pause := by
        rw [← same]
        rfl
      cases state : w.mpd.state with
      | play =>
          rw [state] at started
          obtain ⟨song, here⟩ := Mpd.exists_current sound.positioned (sound.somewhere (.inl state))
          have paused := (paused_track here gained' started deleted).1
          simp [paused]
      | pause =>
          rw [state] at started
          obtain ⟨song, here⟩ := Mpd.exists_current sound.positioned (sound.somewhere (.inr state))
          rw [(paused_track here gained' started deleted).2]
          simp [shared]
      | stop =>
          rw [state] at started
          obtain ⟨stopped, track⟩ := stopped_track sound.positioned gained' stays started deleted
          rw [track]
          simp [stopped, shared]
      | unk => exact absurd state sound.known
  | stop =>
      have gained' : w.mpd.Gained w.cli.m_stat.songpos.toNat new inserted.mpd.stop :=
        ⟨gained.within, gained.songs, gained.nowhere, gained.current⟩
      obtain ⟨stopped, track⟩ := stopped_track sound.positioned gained' stays rfl deleted
      rw [stopped, track]
      cases state : w.mpd.state with
      | play => simp
      | pause => simp
      | stop => simp [shared]
      | unk => exact absurd state sound.known
  | unk => exact absurd rfl known

end Action

/-- The old songs are looked up and deleted one after the other. -/
def Cleans (avt : AVTransport) (env : SetUriEnv) : Prop :=
  env.clean.length = avt.m_songids.length ∧ ∀ e ∈ env.clean, e.1 = true ∧ e.2.Smooth

/-- An action whose commands all succeed keeps the state and sets the track in exactly these
cases. -/
theorem setAVTransportURI_setsTrack_iff (help : PlaylistHelp) (opts : AvtOptions)
    (avt : AVTransport) (w : World) (uri metadata : Option String) (env : SetUriEnv)
    {morphed : String} {nocheck : Bool} (manual : opts.autoplay = false)
    (known : uri.bind help.morphSpecialUrl = some (morphed, nocheck))
    (sound : w.mpd.Sound) (told : w.cli.m_stat.state ≠ .unk)
    (smooth : env.Smooth) (cleans : avt.Cleans env)
    (newId : env.insert.add.first.newid ∉ avt.m_songids.map unsigned)
    (succeeded : (avt.setAVTransportURI help opts w false uri metadata env).1 = .success) :
    SetsTrack morphed w.mpd (avt.setAVTransportURI help opts w false uri metadata env).2.2.mpd ↔
      avt.KeepsState opts w morphed := by
  obtain ⟨song, inserted, result⟩ := setAVTransportURI_success known succeeded
  rw [result]
  cases own : opts.ownQueue with
  | true =>
      have place : insertPlace opts w false = 0 := by
        unfold insertPlace
        rw [own]
        rfl
      rw [place] at inserted ⊢
      obtain ⟨state, track⟩ := own_track smooth manual own w.cli.m_stat.state inserted
      rw [if_pos rfl]
      have sets : SetsTrack morphed w.mpd _ ↔ _ = w.mpd.state :=
        ⟨SetsTrack.state, fun same => ⟨same, track⟩⟩
      rw [sets, state]
      unfold KeepsState
      by_cases playing : w.cli.m_stat.state = .play
      · cases here : w.mpd.state with
        | unk => exact absurd here sound.known
        | play | pause | stop => simp [playing]
      · cases here : w.mpd.state with
        | unk => exact absurd here sound.known
        | play | pause | stop => simp [playing, own]
  | false =>
      have place : insertPlace opts w false = w.cli.m_stat.songpos.toNat := by
        unfold insertPlace
        rw [own]
        rfl
      rw [place] at inserted ⊢
      obtain ⟨new, id, rfl, state, gained⟩ :=
        MpdCli.insert_song smooth.insert _ morphed _ song inserted
      rw [prepared_smooth smooth, own, if_neg Bool.false_ne_true] at state gained
      rw [if_neg Bool.false_ne_true]
      refine shared_track sound told rfl own smooth manual
        ⟨gained.within, gained.songs, gained.nowhere, gained.current⟩ state ?_
        (cleanSongids_smooth _ cleans.1 cleans.2)
      unfold Inserted
      rw [id]
      exact newId

/-- A playing MPD goes on with the new song, and the old one of the service is deleted. -/
theorem setAVTransportURI_setsTrack_playing :
    let queue : MpdQueue := ⟨[{ id := 1, uri := "http://h/a" }], by decide, by decide⟩
    let w : World :=
      (updStatus { mpd := { queue := queue, state := .play, songpos := some 0 } } {}).1
    let env : SetUriEnv :=
      { insert := { add := { first := { newid := 2 } } }, clean := [(true, {})] }
    let avt : AVTransport := { m_songids := [1] }
    SetsTrack "http://h/b" w.mpd
      (avt.setAVTransportURI .plain {} w false (some "http://h/b") none env).2.2.mpd := by
  intro queue w env avt
  have known : (some "http://h/b").bind PlaylistHelp.plain.morphSpecialUrl =
      some ("http://h/b", false) := rfl
  exact (setAVTransportURI_setsTrack_iff .plain {} avt w (some "http://h/b") none env rfl known
    ⟨by decide, by decide, by decide⟩ (by decide) (by decide) ⟨rfl, by decide⟩ (by decide)
    (by decide)).mpr rfl

/-- A paused MPD is stopped when its queue is cleared, and when it is not, then its current
song stays the old one. -/
theorem setAVTransportURI_not_setsTrack :
    let queue : MpdQueue := ⟨[{ id := 1, uri := "http://h/a" }], by decide, by decide⟩
    let w : World :=
      (updStatus { mpd := { queue := queue, state := .pause, songpos := some 0 } } {}).1
    let env : SetUriEnv := { insert := { add := { first := { newid := 2 } } } }
    let set (own : Bool) :=
      ({} : AVTransport).setAVTransportURI .plain { ownQueue := own } w false (some "http://h/b")
        none env
    ((set true).1 = .success ∧ (set true).2.2.mpd.state = .stop ∧
        ¬ SetsTrack "http://h/b" w.mpd (set true).2.2.mpd) ∧
      (set false).1 = .success ∧ (set false).2.2.mpd.track.map (·.uri) = some "http://h/a" ∧
        ¬ SetsTrack "http://h/b" w.mpd (set false).2.2.mpd := by
  intro queue w env set
  refine ⟨⟨by decide, by decide, fun sets => ?_⟩, by decide, by decide, fun sets => ?_⟩
  · exact absurd sets.state (by decide)
  · exact absurd sets.track (by decide)

end AVTransport

end Upmpdcli
