import Upmpdcli.OHPlaylist

set_option autoImplicit false

/- Leaving the playlist source and coming back to it, when MPD executes every command and
nobody else edits its queue meanwhile. -/
namespace Upmpdcli

def CmdEnv.Smooth (env : CmdEnv) : Prop :=
  env.ok = true ∧ env.first.outcome = .replied ∧ env.first.edits = []

def StatusEnv.Smooth (env : StatusEnv) : Prop :=
  env.answered = true ∧ env.before = [] ∧ env.during = []

def ListEnv.Smooth (env : ListEnv) : Prop := env.answered = true ∧ env.edits = []

def PlayEnv.Smooth (env : PlayEnv) : Prop := env.cmd.Smooth ∧ env.status.Smooth

def InsertEnv.Smooth (env : InsertEnv) : Prop :=
  env.add.Smooth ∧ (∀ e ∈ env.tags, e.edits = []) ∧ env.status.Smooth

structure LeaveEnv.Smooth (env : LeaveEnv) : Prop where
  queue : env.queue.Smooth
  status : env.save.status.Smooth
  list : env.save.list.Smooth
  stop : env.stop.Smooth

instance (env : CmdEnv) : Decidable env.Smooth := inferInstanceAs (Decidable (_ ∧ _ ∧ _))

instance (env : StatusEnv) : Decidable env.Smooth := inferInstanceAs (Decidable (_ ∧ _ ∧ _))

instance (env : ListEnv) : Decidable env.Smooth := inferInstanceAs (Decidable (_ ∧ _))

instance (env : LeaveEnv) : Decidable env.Smooth :=
  decidable_of_iff
    (env.queue.Smooth ∧ env.save.status.Smooth ∧ env.save.list.Smooth ∧ env.stop.Smooth)
    ⟨fun ⟨queue, status, list, stop⟩ => ⟨queue, status, list, stop⟩,
      fun smooth => ⟨smooth.queue, smooth.status, smooth.list, smooth.stop⟩⟩

structure RestoreEnv.Smooth (env : RestoreEnv) : Prop where
  ok : env.ok = true
  clear : env.clear.Smooth
  inserts : ∀ e ∈ env.inserts, e.Smooth
  rept : env.rept.Smooth
  random : env.random.Smooth
  single : env.single.Smooth
  consume : env.consume.Smooth
  volume : env.volume.edits = []
  play : env.play.Smooth
  seek : env.seek.Smooth
  pause : env.pause.Smooth

def Mpd.uris (m : Mpd) : List String := m.queue.songs.map MpdSong.uri

/-- What a command which is about the queue leaves alone. -/
structure Mpd.SamePlayer (m m' : Mpd) : Prop where
  rept : m'.rept = m.rept
  random : m'.random = m.random
  single : m'.single = m.single
  consume : m'.consume = m.consume
  state : m'.state = m.state
  nowhere : m.songpos = none → m'.songpos = none

theorem Mpd.SamePlayer.refl (m : Mpd) : m.SamePlayer m := ⟨rfl, rfl, rfl, rfl, rfl, id⟩

theorem Mpd.SamePlayer.trans {m m' m'' : Mpd} (first : m.SamePlayer m')
    (second : m'.SamePlayer m'') : m.SamePlayer m'' :=
  ⟨second.rept.trans first.rept, second.random.trans first.random,
    second.single.trans first.single, second.consume.trans first.consume,
    second.state.trans first.state, fun nowhere => second.nowhere (first.nowhere nowhere)⟩

/-- What a command which is about the player leaves alone. -/
def Mpd.OnlyPlayer (m m' : Mpd) : Prop :=
  ∃ songpos state elapsedms,
    m' = { m with songpos := songpos, state := state, elapsedms := elapsedms }

theorem Mpd.OnlyPlayer.refl (m : Mpd) : m.OnlyPlayer m := ⟨_, _, _, rfl⟩

theorem Mpd.OnlyPlayer.trans {m m' m'' : Mpd} (first : m.OnlyPlayer m')
    (second : m'.OnlyPlayer m'') : m.OnlyPlayer m'' := by
  obtain ⟨_, _, _, rfl⟩ := first
  obtain ⟨_, _, _, rfl⟩ := second
  exact ⟨_, _, _, rfl⟩

theorem Mpd.OnlyPlayer.uris {m m' : Mpd} (moved : m.OnlyPlayer m') : m'.uris = m.uris := by
  obtain ⟨_, _, _, rfl⟩ := moved
  rfl

/-- Every command which moves the player succeeds where there is a song. -/
theorem playPos_spec (m : Mpd) (pos : Nat) :
    if pos < m.uris.length then
      ∃ m', m.playPos pos = some m' ∧ m.OnlyPlayer m' ∧ m'.songpos = some pos
    else m.playPos pos = none := by
  rw [Mpd.uris, List.length_map, Mpd.playPos]
  split
  · exact ⟨_, rfl, ⟨_, _, _, rfl⟩, rfl⟩
  · rfl

theorem seekPos_spec (m : Mpd) (pos seconds : Nat) :
    if pos < m.uris.length then
      ∃ m', m.seekPos pos seconds = some m' ∧ m.OnlyPlayer m' ∧ m'.songpos = some pos
    else m.seekPos pos seconds = none := by
  rw [Mpd.uris, List.length_map, Mpd.seekPos]
  split
  · exact ⟨_, rfl, ⟨_, _, _, rfl⟩, rfl⟩
  · rfl

theorem onlyPlayer_play {m m' : Mpd} {start : Nat} (played : m.play start = some m') :
    m.OnlyPlayer m' := by
  unfold Mpd.play at played
  split at played
  · cases played
    exact ⟨_, _, _, rfl⟩
  · split at played
    · cases played
      exact .refl m
    · have spec := playPos_spec m start
      rw [played] at spec
      split at spec
      · obtain ⟨_, same, moved, -⟩ := spec
        cases same
        exact moved
      · cases spec

theorem uris_addTagId {m m' : Mpd} {song : Nat} {name value : String}
    (tagged : m.addTagId song name value = some m') : m'.uris = m.uris ∧ m.SamePlayer m' := by
  unfold Mpd.addTagId at tagged
  split at tagged
  · cases tagged
  · split at tagged
    · cases tagged
      refine ⟨?_, ⟨rfl, rfl, rfl, rfl, rfl, id⟩⟩
      simp only [Mpd.uris, Mpd.setQueue, MpdQueue.addTag, List.map_map]
      congr 1
      funext song
      simp only [Function.comp_apply]
      split <;> rfl
    · cases tagged

theorem uris_addId {m m' : Mpd} {uri : String} {pos newid id : Nat}
    (added : m.addId uri pos newid = some (id, m')) :
    m'.uris = m.uris.insertIdx pos uri ∧ m.SamePlayer m' := by
  obtain ⟨-, queue, inserted, rfl⟩ := (Mpd.addId_eq_some_iff m m' uri pos newid id).mp added
  refine ⟨?_, ⟨rfl, rfl, rfl, rfl, rfl, fun nowhere => ?_⟩⟩
  · simp only [Mpd.uris, Mpd.setQueue_queue, (MpdQueue.songs_insertAt inserted).1, List.map_insertIdx]
  · simp only [nowhere, Option.map_none]

theorem retryCmd_smooth {α : Type} {env : CmdEnv} (smooth : env.Smooth)
    (cmd : Nat → Mpd → Option (α × Mpd)) (mpd : Mpd) :
    retryCmd env cmd mpd =
      match cmd env.first.newid mpd with
      | some (result, mpd) => (.success result, mpd)
      | none => (.error, mpd) := by
  obtain ⟨ok, replied, alone⟩ := smooth
  unfold retryCmd Attempt.run
  simp only [ok, replied, alone, Mpd.edited, List.foldl_nil, if_true]
  cases cmd env.first.newid mpd with
  | none => simp
  | some result => rfl

theorem mpd_updStatus_smooth {env : StatusEnv} (smooth : env.Smooth) (w : World) :
    (updStatus w env).1.mpd = w.mpd := by
  rw [mpd_updStatus, if_pos smooth.1, smooth.2.1, smooth.2.2]
  rfl

/-- What a status request which is answered at once tells. -/
theorem updStatus_smooth {env : StatusEnv} (smooth : env.Smooth) (w : World) :
    ∃ told : World, updStatus w env = (told, true) ∧ told.mpd = w.mpd ∧
      told.cli.m_stat.rept = w.mpd.rept ∧ told.cli.m_stat.random = w.mpd.random ∧
      told.cli.m_stat.single = w.mpd.single ∧ told.cli.m_stat.consume = w.mpd.consume ∧
      told.cli.m_stat.state = w.mpd.state ∧
      told.cli.m_stat.songpos = (w.mpd.songpos.map Int.ofNat).getD (-1) := by
  obtain ⟨answered, before, during⟩ := smooth
  unfold updStatus
  simp only [answered, before, during, Mpd.edited, List.foldl_nil, if_true]
  refine ⟨_, rfl, rfl, ?_⟩
  dsimp only
  obtain ⟨_, _, _, _, same⟩ := updSongs_eq
    ((w.cli.m_stat.setVolume (if env.mixer = true then w.mpd.volume else -1)
      w.cli.m_cachedvolume).copyStatus w.mpd) w.mpd env
  rw [same]
  exact ⟨rfl, rfl, rfl, rfl, rfl, rfl⟩

namespace MpdCli

theorem command_smooth {env : CmdEnv} (smooth : env.Smooth) (w : World)
    (cmd : Nat → Mpd → Option Mpd) :
    command w env cmd =
      match cmd env.first.newid w.mpd with
      | some mpd => (true, { w with mpd := mpd })
      | none => (false, w) := by
  unfold command
  rw [retryCmd_smooth smooth]
  cases cmd env.first.newid w.mpd with
  | none => rfl
  | some mpd => rfl

theorem uris_sendTagData (cli : MpdCli) (id : Nat) (song : UpSong) {env : List Attempt}
    (alone : ∀ e ∈ env, e.edits = []) (mpd : Mpd) :
    (sendTagData cli id song env mpd).uris = mpd.uris ∧
      mpd.SamePlayer (sendTagData cli id song env mpd) := by
  apply sendTagData_rel (R := fun m m' => m'.uris = m.uris ∧ m.SamePlayer m')
    (fun m => ⟨rfl, .refl m⟩)
    (fun _ _ _ first second => ⟨second.1.trans first.1, first.2.trans second.2⟩)
  · exact fun m m' name value tagged => uris_addTagId tagged
  · intro e member m
    rw [alone e member]
    exact ⟨rfl, .refl m⟩

/-- What MPD has after an insertion which succeeds. -/
theorem mpd_insert_smooth {env : InsertEnv} (smooth : env.Smooth) (w : World) (uri : String)
    (pos : Nat) (song : UpSong) (inserted : ¬ (insert w uri pos song env).1 < 0) :
    ∃ id mpd, w.mpd.addId uri pos env.add.first.newid = some (id, mpd) ∧
      (insert w uri pos song env).2.mpd = sendTagData w.cli id song env.tags mpd := by
  obtain ⟨add, tags, status⟩ := smooth
  unfold insert at inserted ⊢
  have place : (if (pos : Int) = -1 then w.mpd.queue.songs.length else unsigned pos) = pos := by
    rw [if_neg (by omega)]
    rfl
  dsimp only at inserted ⊢
  rw [retryCmd_smooth add, place] at inserted ⊢
  cases added : w.mpd.addId uri pos env.add.first.newid with
  | none =>
      rw [added] at inserted
      exact absurd (show (-1 : Int) < 0 by decide) inserted
  | some result =>
      obtain ⟨id, mpd⟩ := result
      refine ⟨id, mpd, rfl, ?_⟩
      dsimp only
      rw [mpd_updStatus_smooth status]

/-- An insertion which succeeds puts the uri in its place and changes nothing else. -/
theorem insert_smooth {env : InsertEnv} (smooth : env.Smooth) (w : World) (uri : String)
    (pos : Nat) (song : UpSong) (inserted : ¬ (insert w uri pos song env).1 < 0) :
    (insert w uri pos song env).2.mpd.uris = w.mpd.uris.insertIdx pos uri ∧
      w.mpd.SamePlayer (insert w uri pos song env).2.mpd := by
  obtain ⟨id, mpd, added, same⟩ := mpd_insert_smooth smooth w uri pos song inserted
  have put := uris_addId added
  have tagged := uris_sendTagData w.cli id song smooth.2.1 mpd
  rw [same]
  exact ⟨tagged.1.trans put.1, put.2.trans tagged.2⟩

theorem insertAll_smooth {envs : List InsertEnv} (smooth : ∀ e ∈ envs, e.Smooth) (w : World)
    (start : Nat) (queue : List UpSong) (here : w.mpd.uris.length = start)
    (inserted : (insertAll w start queue envs).1 = true) :
    (insertAll w start queue envs).2.mpd.uris = w.mpd.uris ++ queue.map (·.rsrc.uri) ∧
      w.mpd.SamePlayer (insertAll w start queue envs).2.mpd := by
  induction queue generalizing w start envs with
  | nil =>
      simp only [insertAll, List.map_nil, List.append_nil]
      exact ⟨trivial, .refl _⟩
  | cons song rest ih =>
      cases envs with
      | nil => cases inserted
      | cons env envs =>
          unfold insertAll at inserted ⊢
          dsimp only at inserted ⊢
          split at inserted
          · cases inserted
          · rename_i done
            rw [if_neg done]
            have first := insert_smooth (smooth env List.mem_cons_self) w song.rsrc.uri start
              song done
            have appended : w.mpd.uris.insertIdx start song.rsrc.uri =
                w.mpd.uris ++ [song.rsrc.uri] := by
              rw [← here, List.insertIdx_length_self]
            rw [appended] at first
            have later := ih (fun e member => smooth e (List.mem_cons_of_mem _ member)) _
              (start + 1) (by rw [first.1]; simp [here]) inserted
            refine ⟨?_, first.2.trans later.2⟩
            rw [later.1, first.1]
            simp

/-- What is saved of MPD: the modes, the player and the uris the program shows. -/
structure Saved (m : Mpd) (st : MpdState) : Prop where
  rept : st.status.rept = m.rept
  random : st.status.random = m.random
  single : st.status.single = m.single
  consume : st.status.consume = m.consume
  state : st.status.state = m.state
  songpos : st.status.songpos = (m.songpos.map Int.ofNat).getD (-1)
  queue : st.queue.map (·.rsrc.uri) = m.uris.map mapUri

theorem saveState_smooth {env : SaveEnv} (status : env.status.Smooth) (list : env.list.Smooth)
    (w : World) (st : MpdState) : Saved w.mpd (saveState w st (-1) env).2.1 := by
  obtain ⟨told, asked, mpd, rept, random, single, consume, state, songpos⟩ :=
    updStatus_smooth status w
  unfold saveState getQueueData getQueueSongs
  rw [asked]
  simp only [list.1, list.2, Mpd.edited, List.foldl_nil, if_true]
  refine ⟨rept, random, single, consume, state, songpos, ?_⟩
  simp only [uris_mapSongs, Mpd.uris, List.map_map, mpd]
  rfl

theorem restoreModes_smooth {env : RestoreEnv} (smooth : env.Smooth) (w : World)
    (status : MpdStatus) :
    restoreModes w status env =
      { w with mpd := { w.mpd with
        rept := status.rept, random := status.random, single := status.single
        consume := status.consume } } := by
  unfold restoreModes repeat_ random single consume
  simp only [command_smooth smooth.rept, command_smooth smooth.random,
    command_smooth smooth.single, command_smooth smooth.consume]

theorem mpd_command_of_some {env : CmdEnv} (smooth : env.Smooth) {w : World}
    {cmd : Nat → Mpd → Option Mpd} {mpd : Mpd} (done : cmd env.first.newid w.mpd = some mpd) :
    (command w env cmd).1 = true ∧ (command w env cmd).2.mpd = mpd := by
  rw [command_smooth smooth, done]
  exact ⟨rfl, rfl⟩

theorem onlyPlayer_command {env : CmdEnv} (smooth : env.Smooth) {w : World}
    {cmd : Nat → Mpd → Option Mpd}
    (moves : ∀ mpd, cmd env.first.newid w.mpd = some mpd → w.mpd.OnlyPlayer mpd) :
    w.mpd.OnlyPlayer (command w env cmd).2.mpd := by
  rw [command_smooth smooth]
  split
  · rename_i mpd done
    exact moves mpd done
  · exact .refl _

theorem mpd_play {env : PlayEnv} (smooth : env.Smooth) (w : World) (pos : Int) :
    (play w pos env).2.mpd = (command w env.cmd fun start mpd =>
      if pos ≥ 0 then mpd.playPos (unsigned pos) else mpd.play start).2.mpd := by
  unfold play
  dsimp only
  split <;> rename_i ran <;> rw [ran]
  exact mpd_updStatus_smooth smooth.2 _

theorem onlyPlayer_play_smooth {env : PlayEnv} (smooth : env.Smooth) (w : World) (pos : Int) :
    w.mpd.OnlyPlayer (play w pos env).2.mpd := by
  rw [mpd_play smooth]
  apply onlyPlayer_command smooth.1
  intro mpd played
  split at played
  · have spec := playPos_spec w.mpd (unsigned pos)
    rw [played] at spec
    split at spec
    · obtain ⟨_, same, moved, -⟩ := spec
      cases same
      exact moved
    · cases spec
  · exact onlyPlayer_play played

theorem songpos_play {env : PlayEnv} (smooth : env.Smooth) {w : World} {pos : Nat}
    (within : pos < w.mpd.uris.length) : (play w pos env).2.mpd.songpos = some pos := by
  have spec := playPos_spec w.mpd pos
  rw [if_pos within] at spec
  obtain ⟨mpd, played, -, there⟩ := spec
  have done : (if (pos : Int) ≥ 0 then w.mpd.playPos (unsigned pos)
      else w.mpd.play env.cmd.first.newid) = some mpd := by
    rw [if_pos (by omega)]
    exact played
  rw [mpd_play smooth, (mpd_command_of_some smooth.1 done).2, there]

theorem onlyPlayer_seek {env : PlayEnv} (smooth : env.Smooth) (w : World) (seconds : Int) :
    w.mpd.OnlyPlayer (seek w seconds env).2.mpd := by
  obtain ⟨told, asked, mpd, -⟩ := updStatus_smooth smooth.2 w
  unfold seek
  rw [asked, ← mpd]
  dsimp only
  split
  · exact .refl _
  · apply onlyPlayer_command smooth.1
    intro moved sought
    have spec := seekPos_spec told.mpd (unsigned told.cli.m_stat.songpos) (unsigned seconds)
    rw [sought] at spec
    split at spec
    · obtain ⟨_, same, moved, -⟩ := spec
      cases same
      exact moved
    · cases spec

/-- Seeking stays on the current song. -/
theorem songpos_seek {env : PlayEnv} (smooth : env.Smooth) {w : World} {pos : Nat}
    (current : w.mpd.songpos = some pos) (within : pos < w.mpd.uris.length) (seconds : Int) :
    (seek w seconds env).2.mpd.songpos = some pos := by
  obtain ⟨told, asked, mpd, -, -, -, -, -, songpos⟩ := updStatus_smooth smooth.2 w
  rw [current] at songpos
  have there : told.cli.m_stat.songpos = pos := songpos
  have spec := seekPos_spec told.mpd pos (unsigned seconds)
  rw [if_pos (by rw [mpd]; exact within)] at spec
  obtain ⟨mpd', sought, -, still⟩ := spec
  unfold seek
  rw [asked]
  dsimp only
  let seekCmd : Nat → Mpd → Option Mpd := fun _ mpd => mpd.seekPos pos (unsigned seconds)
  have moved : (command told env.cmd seekCmd).2.mpd = mpd' := by
    apply (mpd_command_of_some smooth.1 _).2
    exact sought
  rw [there, if_neg (by omega)]
  exact (congrArg Mpd.songpos moved).trans still

theorem onlyPlayer_pause {env : CmdEnv} (smooth : env.Smooth) (w : World) (onoff : Bool) :
    w.mpd.OnlyPlayer (pause w onoff env).2.mpd ∧
      (pause w onoff env).2.mpd.songpos = w.mpd.songpos := by
  unfold pause
  rw [(mpd_command_of_some smooth rfl).2]
  exact ⟨⟨_, _, _, rfl⟩, rfl⟩

/-- The player is on the saved entry again if it was playing or paused. -/
theorem restorePlayer_smooth {env : RestoreEnv} (smooth : env.Smooth) (w : World)
    (status : MpdStatus) :
    w.mpd.OnlyPlayer (restorePlayer w status env).mpd ∧
      ∀ pos : Nat, status.songpos = pos → pos < w.mpd.uris.length →
        status.state = .pause ∨ status.state = .play →
          (restorePlayer w status env).mpd.songpos = some pos := by
  unfold restorePlayer
  split
  · dsimp only
    have played := onlyPlayer_play_smooth smooth.play w status.songpos
    have there (pos : Nat) (saved : status.songpos = pos) (within : pos < w.mpd.uris.length) :
        (play w status.songpos env.play).2.mpd.songpos = some pos := by
      rw [saved]
      exact songpos_play smooth.play within
    generalize (play w status.songpos env.play).2 = started at played there
    have sought (seconds : Int) := played.trans (onlyPlayer_seek smooth.seek started seconds)
    have stays (pos : Nat) (saved : status.songpos = pos) (within : pos < w.mpd.uris.length)
        (seconds : Int) : (seek started seconds env.seek).2.mpd.songpos = some pos :=
      songpos_seek smooth.seek (there pos saved within) (by rw [played.uris]; exact within) seconds
    have paused (w' : World) := onlyPlayer_pause smooth.pause w' true
    split
    · split
      · exact ⟨(sought _).trans (paused _).1, fun pos saved within _ =>
          (paused _).2.trans (stays pos saved within _)⟩
      · exact ⟨played.trans (paused _).1, fun pos saved within _ =>
          (paused _).2.trans (there pos saved within)⟩
    · split
      · exact ⟨sought _, fun pos saved within _ => stays pos saved within _⟩
      · exact ⟨played, fun pos saved within _ => there pos saved within⟩
  · rename_i still
    exact ⟨.refl _, fun _ _ _ playing => absurd playing still⟩

theorem mpd_restoreVolume (w : World) (volume : Int) {e : Attempt} (alone : e.edits = []) :
    ∃ volume', (restoreVolume w volume e).mpd = { w.mpd with volume := volume' } := by
  unfold restoreVolume Attempt.run
  simp only [alone, Mpd.edited, List.foldl_nil]
  split <;> rename_i done
  · cases done
    exact ⟨_, rfl⟩
  · cases done
    exact ⟨_, rfl⟩
  · exact ⟨_, rfl⟩

/-- What a restoration which succeeds makes of MPD, whatever MPD was used for before. -/
theorem restoreState_smooth {env : RestoreEnv} (smooth : env.Smooth) (w : World) (st : MpdState)
    (restored : (restoreState w st env).1 = true) :
    let mpd := (restoreState w st env).2.mpd
    mpd.uris = st.queue.map (·.rsrc.uri) ∧
      (mpd.rept = st.status.rept ∧ mpd.random = st.status.random ∧
        mpd.single = st.status.single ∧ mpd.consume = st.status.consume) ∧
      ∀ pos : Nat, st.status.songpos = pos → pos < st.queue.length →
        st.status.state = .pause ∨ st.status.state = .play → mpd.songpos = some pos := by
  unfold restoreState at restored ⊢
  rw [if_pos smooth.ok] at restored ⊢
  have cleared : (clearQueue w env.clear).2.mpd.uris = [] := by
    unfold clearQueue
    rw [(mpd_command_of_some smooth.clear rfl).2]
    rfl
  dsimp only at restored ⊢
  generalize (clearQueue w env.clear).2 = empty at restored cleared ⊢
  split at restored
  · cases restored
  · rename_i filled ran
    have inserted := insertAll_smooth smooth.inserts empty 0 st.queue (by rw [cleared]; rfl)
      (by rw [ran])
    rw [ran, cleared, List.nil_append] at inserted
    dsimp only at inserted ⊢
    rw [restoreModes_smooth smooth]
    obtain ⟨volume, same⟩ := mpd_restoreVolume { filled with mpd := { filled.mpd with
      rept := st.status.rept, random := st.status.random, single := st.status.single
      consume := st.status.consume } } st.status.volume smooth.volume
    generalize restoreVolume _ st.status.volume env.volume = full at same ⊢
    obtain ⟨moved, there⟩ := restorePlayer_smooth smooth full st.status
    have uris : full.mpd.uris = st.queue.map (·.rsrc.uri) := by
      rw [same, ← inserted.1]
      rfl
    refine ⟨moved.uris.trans uris, ?_, fun pos saved within playing => ?_⟩
    · obtain ⟨_, _, _, moved⟩ := moved
      rw [moved, same]
      exact ⟨rfl, rfl, rfl, rfl⟩
    · exact there pos saved (by rw [uris, List.length_map]; exact within) playing

end MpdCli

namespace OHPlaylist

variable (help : PlaylistHelp)

theorem makestate_smooth {env : ListEnv} (smooth : env.Smooth) (pl : OHPlaylist) (w : World) :
    (makestate help pl w env).2.2 = w := by
  unfold makestate
  split
  · unfold makeIdArray MpdCli.getQueueData MpdCli.getQueueSongs
    simp only [smooth.1, smooth.2, Mpd.edited, List.foldl_nil, if_true]
    split <;> rfl
  · rfl

theorem saved_leave {env : LeaveEnv} (smooth : env.Smooth) (pl : OHPlaylist) (w : World) :
    MpdCli.Saved w.mpd (leave help pl w env).1.m_mpdsavedstate := by
  have same := makestate_smooth help smooth.queue pl w
  have saved := MpdCli.saveState_smooth smooth.status smooth.list
    (makestate help pl w env.queue).2.2 (makestate help pl w env.queue).2.1.m_mpdsavedstate
  rw [same] at saved
  show MpdCli.Saved w.mpd (MpdCli.saveState (makestate help pl w env.queue).2.2
    (makestate help pl w env.queue).2.1.m_mpdsavedstate (-1) env.save).2.1
  rwa [same]

/-- Coming back to the playlist restores its uris and the modes, and the current entry if it
was being played, when all the uris look like transport uris. Meanwhile the daemon and its
client can come to any state, and so can the rest of the service. -/
theorem comeBack_leave (pl idle : OHPlaylist) (w used : World) (leaveEnv : LeaveEnv)
    (backEnv : ComeBackEnv) (leaves : leaveEnv.Smooth) (restores : backEnv.restore.Smooth)
    (transport : ∀ uri ∈ w.mpd.uris, looksLikeTransportURI uri = true)
    (kept : idle.m_mpdsavedstate = (leave help pl w leaveEnv).1.m_mpdsavedstate)
    (restored : (MpdCli.restoreState (MpdCli.clearQueue used backEnv.clear).2
      idle.m_mpdsavedstate backEnv.restore).1 = true) :
    let back := (comeBack idle used backEnv).2.mpd
    back.uris = w.mpd.uris ∧
      (back.rept = w.mpd.rept ∧ back.random = w.mpd.random ∧ back.single = w.mpd.single ∧
        back.consume = w.mpd.consume) ∧
      ∀ pos, w.mpd.songpos = some pos → pos < w.mpd.uris.length →
        w.mpd.state = .pause ∨ w.mpd.state = .play → back.songpos = some pos := by
  have saved := saved_leave help leaves pl w
  rw [← kept] at saved
  have uris : idle.m_mpdsavedstate.queue.map (·.rsrc.uri) = w.mpd.uris := by
    rw [saved.queue]
    refine (List.map_congr_left fun uri member => ?_).trans (List.map_id _)
    exact mapUri_of_looksLikeTransportURI (transport uri member)
  have length : idle.m_mpdsavedstate.queue.length = w.mpd.uris.length := by
    rw [← uris, List.length_map]
  obtain ⟨same, modes, there⟩ := MpdCli.restoreState_smooth restores _ _ restored
  rw [saved.rept, saved.random, saved.single, saved.consume] at modes
  refine ⟨same.trans uris, modes, fun pos current within playing => ?_⟩
  apply there pos
  · rw [saved.songpos, current]
    rfl
  · rw [length]
    exact within
  · rwa [saved.state]

def succeeding (newids : List Nat) : ComeBackEnv :=
  { restore := { inserts := newids.map fun newid => { add := { first := { newid := newid } } } } }

theorem smooth_succeeding (newids : List Nat) : (succeeding newids).restore.Smooth := by
  have smooth : CmdEnv.Smooth {} := ⟨rfl, rfl, rfl⟩
  have status : StatusEnv.Smooth {} := ⟨rfl, rfl, rfl⟩
  refine ⟨rfl, smooth, fun e member => ?_, smooth, smooth, smooth, smooth, rfl,
    ⟨smooth, status⟩, ⟨smooth, status⟩, smooth⟩
  obtain ⟨newid, -, rfl⟩ := List.mem_map.mp member
  exact ⟨⟨rfl, rfl, rfl⟩, by simp, status⟩

/-- MPD after leaving the playlist in this state, using MPD otherwise, and coming back. -/
def roundTrip (w used : World) (newids : List Nat) : Mpd :=
  (comeBack (leave .plain {} w {}).1 used (succeeding newids)).2.mpd

/-- Two songs, the second one playing when the source is left, and a radio stream in MPD when
it comes back. -/
theorem comeBack_leave_two :
    let songs : MpdQueue :=
      ⟨[{ id := 1, uri := "http://h/a" }, { id := 2, uri := "http://h/b" }], by decide, by decide⟩
    let radio : MpdQueue := ⟨[{ id := 7, uri := "http://h/radio" }], by decide, by decide⟩
    let w : World := { mpd := { queue := songs, state := .play, songpos := some 1 } }
    let used : World := { mpd := { queue := radio, rept := true } }
    (roundTrip w used [8, 9]).uris = w.mpd.uris ∧ (roundTrip w used [8, 9]).rept = false ∧
      (roundTrip w used [8, 9]).songpos = some 1 := by
  intro songs radio w used
  have leaves : LeaveEnv.Smooth {} :=
    ⟨⟨rfl, rfl⟩, ⟨rfl, rfl, rfl⟩, ⟨rfl, rfl⟩, ⟨rfl, rfl, rfl⟩⟩
  have restored := comeBack_leave .plain {} (leave .plain {} w {}).1 w used {}
    (succeeding [8, 9]) leaves (smooth_succeeding _) (by decide) rfl (by decide)
  exact ⟨restored.1, restored.2.1.1, restored.2.2 1 rfl (by decide) (.inr rfl)⟩

/-- A stopped player comes back without its current entry, and a song of the local library
as a stream. -/
theorem roundTrip_differs :
    (let songs : MpdQueue := ⟨[{ id := 1, uri := "http://h/a" }], by decide, by decide⟩
      let w : World := { mpd := { queue := songs, state := .stop, songpos := some 0 } }
      (roundTrip w {} [8]).uris = w.mpd.uris ∧ (roundTrip w {} [8]).songpos ≠ w.mpd.songpos) ∧
    (let songs : MpdQueue := ⟨[{ id := 1, uri := "music/a.flac" }], by decide, by decide⟩
      let w : World := { mpd := { queue := songs } }
      (roundTrip w {} [8]).uris ≠ w.mpd.uris) := by
  decide

end OHPlaylist

end Upmpdcli
