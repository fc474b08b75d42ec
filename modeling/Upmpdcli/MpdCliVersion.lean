import Upmpdcli.MpdCliInsertPlace
import Upmpdcli.MpdCliState

set_option autoImplicit false

/- The queue version over all the operations of the client. -/
namespace Upmpdcli

/-- The queue only changes together with its version, and a version is not known to the
client before MPD has it. -/
structure World.Forward (w w' : World) : Prop where
  later : w.mpd.Later w'.mpd
  known : w.cli.m_stat.qvers ≤ w.mpd.vers → w'.cli.m_stat.qvers ≤ w'.mpd.vers

namespace World

theorem Forward.refl (w : World) : w.Forward w := ⟨w.mpd.later_refl, id⟩

theorem Forward.trans {w w' w'' : World} (first : w.Forward w') (second : w'.Forward w'') :
    w.Forward w'' :=
  ⟨first.later.trans second.later, fun known => second.known (first.known known)⟩

/-- What happens to MPD alone, with a client which knows no other version. -/
theorem forward_of_later {w : World} {cli : MpdCli} {mpd : Mpd}
    (same : cli.m_stat.qvers = w.cli.m_stat.qvers) (later : w.mpd.Later mpd) :
    w.Forward { cli := cli, mpd := mpd } := by
  refine ⟨later, fun known => ?_⟩
  have grows := later.1
  dsimp only
  omega

end World

namespace Mpd

theorem later_of_same_queue {m m' : Mpd} (queue : m'.queue = m.queue) (vers : m'.vers = m.vers) :
    m.Later m' := ⟨Nat.le_of_eq vers.symm, fun _ => by rw [queue]⟩

theorem later_clear (m : Mpd) : m.Later m.clear := later_of_lt (Nat.lt_succ_self _)

theorem later_playPos {m m' : Mpd} {pos : Nat} (played : m.playPos pos = some m') :
    m.Later m' := by
  unfold playPos at played
  split at played
  · cases played
    exact later_of_same_queue rfl rfl
  · cases played

theorem later_play {m m' : Mpd} {start : Nat} (played : m.play start = some m') : m.Later m' := by
  unfold play at played
  split at played
  · cases played
    exact later_of_same_queue rfl rfl
  · split at played
    · cases played
      exact m.later_refl
    · exact later_playPos played

theorem later_seekPos {m m' : Mpd} {pos seconds : Nat} (sought : m.seekPos pos seconds = some m') :
    m.Later m' := by
  unfold seekPos at sought
  split at sought
  · cases sought
    exact later_of_same_queue rfl rfl
  · cases sought

end Mpd

namespace MpdCli

open World

theorem forward_updStatus (w : World) (env : StatusEnv) : w.Forward (updStatus w env).1 :=
  ⟨later_updStatus w env, fun known => known_updStatus known env⟩

theorem forward_command (cmd : Nat → Mpd → Option Mpd)
    (later : ∀ chosen m m', cmd chosen m = some m' → m.Later m') (w : World) (env : CmdEnv) :
    w.Forward (command w env cmd).2 := by
  have sent : w.mpd.Later
      (retryCmd env (fun chosen mpd => (cmd chosen mpd).map fun mpd => ((), mpd)) w.mpd).2 := by
    apply later_retryCmd
    intro chosen m result m' executed
    obtain ⟨_, done, same⟩ := Option.map_eq_some_iff.mp executed
    cases same
    exact later _ _ _ done
  unfold command
  split <;> rename_i ran <;> rw [ran] at sent <;> exact forward_of_later rfl sent

theorem forward_insert (w : World) (uri : String) (pos : Int) (song : UpSong) (env : InsertEnv) :
    w.Forward (insert w uri pos song env).2 := by
  have sent : w.mpd.Later (retryCmd env.add (fun newid mpd =>
      mpd.addId uri (if pos = -1 then mpd.queue.songs.length else unsigned pos) newid) w.mpd).2 := by
    apply later_retryCmd
    intro newid m id m' added
    apply Mpd.later_of_lt
    rw [Mpd.vers_addId added]
    omega
  unfold insert
  dsimp only
  split <;> rename_i ran <;> rw [ran] at sent
  · exact forward_of_later rfl sent
  · exact forward_of_later rfl sent
  · rename_i id mpd
    have tagged := later_sendTagData w.cli id song env.tags mpd
    have inserted : w.Forward
        { cli := { w.cli with m_lastinsertid := id, m_lastinsertpos := pos }
          mpd := sendTagData w.cli id song env.tags mpd } :=
      forward_of_later rfl (sent.trans tagged)
    have told := inserted.trans (forward_updStatus _ env.status)
    exact ⟨told.later, told.known⟩

theorem forward_getQueueData (w : World) (env : ListEnv) : w.Forward (getQueueData w env).2 := by
  have world : (getQueueData w env).2 = { w with mpd := w.mpd.edited env.edits } := by
    unfold getQueueData getQueueSongs
    cases env.answered <;> rfl
  rw [world]
  exact forward_of_later rfl (w.mpd.later_edited env.edits)

theorem forward_play (w : World) (pos : Int) (env : PlayEnv) : w.Forward (play w pos env).2 := by
  have played := forward_command (fun start mpd =>
      if pos ≥ 0 then mpd.playPos (unsigned pos) else mpd.play start)
    (fun start m m' done => by
      split at done
      · exact Mpd.later_playPos done
      · exact Mpd.later_play done) w env.cmd
  unfold play
  dsimp only
  split <;> rename_i ran <;> rw [ran] at played
  · exact played
  · exact played.trans (forward_updStatus _ env.status)

theorem forward_seek (w : World) (seconds : Int) (env : PlayEnv) :
    w.Forward (seek w seconds env).2 := by
  have asked := forward_updStatus w env.status
  unfold seek
  split <;> rename_i told <;> rw [told] at asked
  · exact asked
  · dsimp only
    split
    · exact asked
    · exact asked.trans (forward_command _ (fun _ _ _ done => Mpd.later_seekPos done) _ env.cmd)

theorem forward_insertAll (w : World) (start : Nat) (queue : List UpSong)
    (envs : List InsertEnv) : w.Forward (insertAll w start queue envs).2 := by
  induction queue generalizing w start envs with
  | nil => exact .refl w
  | cons song rest ih =>
      cases envs with
      | nil => exact .refl w
      | cons env envs =>
          have first := forward_insert w song.rsrc.uri start song env
          unfold insertAll
          dsimp only
          split
          · exact first
          · exact first.trans (ih _ _ _)

theorem forward_clearQueue (w : World) (env : CmdEnv) : w.Forward (clearQueue w env).2 :=
  forward_command _ (fun _ m _ done => by cases done; exact m.later_clear) w env

/-- A command which is not about the queue. -/
theorem forward_mode (change : Mpd → Mpd) (queue : ∀ m, (change m).queue = m.queue)
    (vers : ∀ m, (change m).vers = m.vers) (w : World) (env : CmdEnv) :
    w.Forward (command w env fun _ mpd => some (change mpd)).2 :=
  forward_command _ (fun _ m _ done => by
    cases done
    exact Mpd.later_of_same_queue (queue m) (vers m)) w env

theorem forward_restoreModes (w : World) (status : MpdStatus) (env : RestoreEnv) :
    w.Forward (restoreModes w status env) := by
  have rept := forward_mode (fun mpd => { mpd with rept := status.rept })
    (fun _ => rfl) (fun _ => rfl) w env.rept
  have random := rept.trans (forward_mode
    (fun mpd => { mpd with random := status.random }) (fun _ => rfl) (fun _ => rfl) _
    env.random)
  have single := random.trans (forward_mode
    (fun mpd => { mpd with single := status.single }) (fun _ => rfl) (fun _ => rfl) _
    env.single)
  exact single.trans (forward_mode
    (fun mpd => { mpd with consume := status.consume }) (fun _ => rfl) (fun _ => rfl) _
    env.consume)

theorem forward_restoreVolume (w : World) (volume : Int) (e : Attempt) :
    w.Forward (restoreVolume w volume e) := by
  have sent : w.mpd.Later
      (e.run (fun _ mpd => some ((), { mpd with volume := volume })) w.mpd).2 := by
    apply Attempt.later_run
    intro _ m _ m' done
    cases done
    exact Mpd.later_of_same_queue rfl rfl
  exact forward_of_later rfl sent

theorem forward_restorePlayer (w : World) (status : MpdStatus) (env : RestoreEnv) :
    w.Forward (restorePlayer w status env) := by
  have played := forward_play w status.songpos env.play
  have paused (w' : World) : w'.Forward (pause w' true env.pause).2 :=
    forward_mode (fun mpd => mpd.setPause true) (fun _ => rfl) (fun _ => rfl) w' env.pause
  unfold restorePlayer
  dsimp only
  split
  · have sought := played.trans (forward_seek _ (status.songelapsedms / 1000) env.seek)
    split <;> split
    · exact sought.trans (paused _)
    · exact played.trans (paused _)
    · exact sought
    · exact played
  · exact .refl w

theorem forward_restoreState (w : World) (st : MpdState) (env : RestoreEnv) :
    w.Forward (restoreState w st env).2 := by
  have cleared := forward_clearQueue w env.clear
  unfold restoreState
  dsimp only
  split
  · have filled := cleared.trans (forward_insertAll (clearQueue w env.clear).2 0 st.queue env.inserts)
    split <;> rename_i ran <;> rw [ran] at filled
    · exact filled
    · exact ((filled.trans (forward_restoreModes _ st.status env)).trans
        (forward_restoreVolume _ st.status.volume env.volume)).trans
        (forward_restorePlayer _ st.status env)
  · exact .refl w

theorem forward_saveState (w : World) (st : MpdState) (seekms : Int) (env : SaveEnv) :
    w.Forward (saveState w st seekms env).2.2 := by
  have asked := forward_updStatus w env.status
  unfold saveState
  split <;> rename_i told <;> rw [told] at asked
  · exact asked
  · have read := asked.trans (forward_getQueueData _ env.list)
    dsimp only
    split <;> rename_i ran <;> rw [ran] at read <;> exact read

end MpdCli

end Upmpdcli
