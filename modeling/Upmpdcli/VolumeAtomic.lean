import Upmpdcli.MpdCliRetry
import Upmpdcli.UpMpd

set_option autoImplicit false

/- What a `setVolume` which fails leaves behind. It changes what the client remembers before
it sends the command to MPD. -/
namespace Upmpdcli

/-- Nothing is left of a request: the volumes are the old ones, and a later mute action does
what it would have done without the request. -/
structure Undone (w : World) (after : World) : Prop where
  premute : after.cli.m_premutevolume = w.cli.m_premutevolume
  status : after.cli.m_stat.volume = w.cli.m_stat.volume
  cached : after.cli.m_cachedvolume = w.cli.m_cachedvolume
  later : ∀ (onoff : Bool) (env : CmdEnv),
    UpMpd.setmute after onoff env = UpMpd.setmute { w with mpd := after.mpd } onoff env

def Atomic (w : World) (ended : Bool × World) : Prop := ended.1 = false → Undone w ended.2

/-- One of the two attempts is answered. -/
def CmdEnv.Replies (env : CmdEnv) : Prop :=
  env.ok = true ∧ (env.first.outcome = .replied ∨
    env.reopened = true ∧ env.second.outcome = .replied)

instance (env : CmdEnv) : Decidable env.Replies := inferInstanceAs (Decidable (_ ∧ _))

/-- The request ends a mute, or begins one: it changes the saved volume. -/
def SwitchesMute (cli : MpdCli) (volume : Int) (isMute : Bool) : Prop :=
  isMute = true ∧ if volume ≠ 0 then cli.m_premutevolume ≠ 0 else cli.m_premutevolume ≤ 0

instance (cli : MpdCli) (volume : Int) (isMute : Bool) :
    Decidable (SwitchesMute cli volume isMute) := inferInstanceAs (Decidable (_ ∧ _))

theorem undone_of_cli_eq {w after : World} (same : after.cli = w.cli) : Undone w after := by
  cases after with
  | mk cli mpd =>
      change cli = w.cli at same
      subst same
      exact ⟨rfl, rfl, rfl, fun _ _ => rfl⟩

/-- A command which MPD never refuses succeeds when it is answered. -/
theorem exists_success_iff_replies (change : Mpd → Mpd) (env : CmdEnv) (mpd : Mpd) :
    (∃ mpd', retryCmd env (fun _ mpd => some ((), change mpd)) mpd = (.success (), mpd')) ↔
      env.Replies := by
  constructor
  · rintro ⟨mpd', done⟩
    obtain ⟨ok, ⟨first, -⟩ | ⟨-, reopened, second, -⟩⟩ := retryCmd_eq_success_iff.mp done
    · exact ⟨ok, .inl first⟩
    · exact ⟨ok, .inr ⟨reopened, second⟩⟩
  · rintro ⟨ok, replied⟩
    by_cases first : env.first.outcome = .replied
    · exact ⟨_, retryCmd_eq_success_iff.mpr ⟨ok, .inl ⟨first, rfl⟩⟩⟩
    · obtain ⟨reopened, second⟩ := replied.resolve_left first
      exact ⟨_, retryCmd_eq_success_iff.mpr ⟨ok, .inr ⟨first, reopened, second, rfl⟩⟩⟩

theorem sendVolume_eq_true_iff (w : World) (cli : MpdCli) (volume : Int) (env : CmdEnv) :
    (MpdCli.sendVolume w cli volume env).1 = true ↔ env.Replies := by
  rw [← exists_success_iff_replies
    (fun mpd => { mpd with volume := MpdCli.clampVolume volume }) env w.mpd]
  unfold MpdCli.sendVolume
  dsimp only
  split
  · rename_i ran
    exact iff_of_true rfl ⟨_, ran⟩
  · rename_i ran
    apply iff_of_false Bool.false_ne_true
    rintro ⟨mpd', done⟩
    cases ran.symm.trans done
  · rename_i ran
    apply iff_of_false Bool.false_ne_true
    rintro ⟨mpd', done⟩
    cases ran.symm.trans done

/-- A `setvol` which fails leaves what the first part of `setVolume` has made of the client. -/
theorem cli_sendVolume_of_false {w : World} {cli : MpdCli} {volume : Int} {env : CmdEnv}
    (failed : (MpdCli.sendVolume w cli volume env).1 = false) :
    (MpdCli.sendVolume w cli volume env).2.cli = cli := by
  unfold MpdCli.sendVolume at failed ⊢
  dsimp only at failed ⊢
  split
  · rename_i ran
    rw [ran] at failed
    cases failed
  · rfl
  · rfl

theorem atomic_sendVolume (w : World) (volume : Int) (env : CmdEnv) :
    Atomic w (MpdCli.sendVolume w w.cli volume env) := by
  intro failed
  apply undone_of_cli_eq
  exact cli_sendVolume_of_false failed

theorem atomic_sendVolume_iff {w : World} {cli : MpdCli} (volume : Int) (env : CmdEnv)
    (changed : cli.m_premutevolume ≠ w.cli.m_premutevolume) :
    Atomic w (MpdCli.sendVolume w cli volume env) ↔ env.Replies := by
  rw [← sendVolume_eq_true_iff w cli volume env]
  constructor
  · intro atomic
    by_contra failed
    have failed := Bool.eq_false_iff.mpr failed
    have kept := (atomic failed).premute
    rw [cli_sendVolume_of_false failed] at kept
    exact changed kept
  · intro done failed
    rw [done] at failed
    cases failed

/-- A failed request is undone exactly when it does not switch the mute. -/
theorem setVolume_atomic_iff (w : World) (volume : Int) (isMute : Bool) (env : CmdEnv) :
    Atomic w (MpdCli.setVolume w volume isMute env) ↔
      env.Replies ∨ ¬ SwitchesMute w.cli volume isMute := by
  unfold MpdCli.setVolume SwitchesMute
  cases isMute with
  | false =>
      apply iff_of_true
      · exact atomic_sendVolume w volume env
      · simp
  | true =>
      dsimp only
      rw [if_pos rfl]
      by_cases unmute : volume ≠ 0
      · rw [if_pos unmute]
        by_cases muted : w.cli.m_premutevolume ≠ 0
        · rw [if_pos muted, atomic_sendVolume_iff _ _ (Ne.symm muted)]
          simp [unmute, muted]
        · have same : { w.cli with m_premutevolume := 0 } = w.cli := by
            rw [← not_not.mp muted]
          rw [if_neg muted, same]
          apply iff_of_true
          · exact atomic_sendVolume w volume env
          · simp [unmute, muted]
      · rw [if_neg unmute]
        by_cases muted : w.cli.m_premutevolume > 0
        · rw [if_pos muted]
          apply iff_of_true
          · intro failed
            cases failed
          · simp [unmute, muted]
        · have changed : (if w.cli.m_cachedvolume > 0 then w.cli.m_cachedvolume else 1) ≠
              w.cli.m_premutevolume := by
            split <;> omega
          rw [if_neg muted, atomic_sendVolume_iff _ _ changed]
          simp [unmute, Int.not_lt.mp muted]

/-- A mute which does not get to MPD leaves a saved volume, which is how the device knows that
it is muted. -/
theorem setVolume_not_atomic :
    ¬ ∀ (w : World) (volume : Int) (isMute : Bool) (env : CmdEnv),
      Atomic w (MpdCli.setVolume w volume isMute env) := by
  intro atomic
  have kept := (atomic {} 0 true { first := { outcome := .notSent } } rfl).premute
  exact absurd kept (by decide)

end Upmpdcli
