import Upmpdcli.MpdCli

set_option autoImplicit false

/- The device: what its services share. -/
namespace Upmpdcli

/-- The results of actions. -/
inductive UpnpCode
  | success
  | invalidParam
  | internalError
  | actionFailed
deriving DecidableEq

namespace MpdCli

def clampVolume (volume : Int) : Int :=
  if volume < 0 then 0 else if volume > 100 then 100 else volume

/-- The volume is remembered as if the status had said it. -/
def recordVolume (cli : MpdCli) (volume : Int) : MpdCli :=
  { cli with m_stat := { cli.m_stat with volume := volume }, m_cachedvolume := volume }

/-- The second part of `setVolume`, with the volume controlled by MPD and no
`onvolumechange` command. `cli` is what the first part has made of the client. -/
def sendVolume (w : World) (cli : MpdCli) (volume : Int) (env : CmdEnv) : Bool × World :=
  let volume := clampVolume volume
  match retryCmd env (fun _ mpd => some ((), { mpd with volume := volume })) w.mpd with
  | (.success _, mpd) => (true, { cli := cli.recordVolume volume, mpd := mpd })
  | (.error, mpd) | (.notOk, mpd) => (false, { cli := cli, mpd := mpd })

/-- MPD has no mute function: a mute request comes as volume 0, and the end of it as
volume 1. -/
def setVolume (w : World) (volume : Int) (isMute : Bool) (env : CmdEnv) : Bool × World :=
  let cli := w.cli
  if isMute then
    if volume ≠ 0 then
      if cli.m_premutevolume ≠ 0 then
        let premute := cli.m_premutevolume
        sendVolume w
          { cli with m_stat := { cli.m_stat with volume := premute }, m_premutevolume := 0 }
          premute env
      else sendVolume w { cli with m_premutevolume := 0 } volume env
    else if cli.m_premutevolume > 0 then (true, w)
    else
      -- never 0, which would look like no mute at all
      let premute := if cli.m_cachedvolume > 0 then cli.m_cachedvolume else 1
      sendVolume w { cli with m_premutevolume := premute } 0 env
  else sendVolume w cli volume env

def getVolume (cli : MpdCli) : Int :=
  if cli.m_stat.volume ≥ 0 then cli.m_stat.volume else cli.m_cachedvolume

end MpdCli

namespace UpMpd

def getvolume (w : World) : Int := w.cli.getVolume

def setvolume (w : World) (volume : Int) (env : CmdEnv) : Bool × World :=
  MpdCli.setVolume w volume false env

def setmute (w : World) (onoff : Bool) (env : CmdEnv) : Bool × World :=
  if onoff then MpdCli.setVolume w 0 true env else MpdCli.setVolume w 1 true env

end UpMpd

theorem setmute_false_eq (w : World) (env : CmdEnv) :
    UpMpd.setmute w false env =
      if w.cli.m_premutevolume ≠ 0 then
        MpdCli.sendVolume w
          { w.cli with
            m_stat := { w.cli.m_stat with volume := w.cli.m_premutevolume }
            m_premutevolume := 0 }
          w.cli.m_premutevolume env
      else MpdCli.sendVolume w { w.cli with m_premutevolume := 0 } 1 env := rfl

theorem setmute_true_eq (w : World) (env : CmdEnv) :
    UpMpd.setmute w true env =
      if w.cli.m_premutevolume > 0 then (true, w)
      else
        MpdCli.sendVolume w
          { w.cli with
            m_premutevolume := if w.cli.m_cachedvolume > 0 then w.cli.m_cachedvolume else 1 }
          0 env := rfl

theorem clampVolume_nonneg (volume : Int) : 0 ≤ MpdCli.clampVolume volume := by
  unfold MpdCli.clampVolume
  split
  · omega
  · split <;> omega

theorem clampVolume_eq_zero_iff (volume : Int) : MpdCli.clampVolume volume = 0 ↔ volume ≤ 0 := by
  unfold MpdCli.clampVolume
  split
  · omega
  · split <;> omega

/-- No command is executed without its reply being received. -/
def CmdEnv.Heard (env : CmdEnv) : Prop :=
  env.first.outcome ≠ .lost ∧ env.second.outcome ≠ .lost

instance (env : CmdEnv) : Decidable env.Heard := inferInstanceAs (Decidable (_ ∧ _))

theorem volume_run_none {α : Type} {e : Attempt} {cmd : Nat → Mpd → Option (α × Mpd)}
    {mpd mpd' : Mpd} (heard : e.outcome ≠ .lost) (ran : e.run cmd mpd = (none, mpd')) :
    mpd'.volume = mpd.volume := by
  unfold Attempt.run at ran
  dsimp only at ran
  split at ran
  · cases ran
  · rename_i lost _
    exact absurd lost heard
  · cases ran
    exact Mpd.volume_edited mpd e.edits

theorem volume_run_some {e : Attempt} {volume : Int} {mpd mpd' : Mpd}
    (ran : e.run (fun _ mpd => some ((), { mpd with volume := volume })) mpd = (some (), mpd')) :
    mpd'.volume = volume := by
  unfold Attempt.run at ran
  dsimp only at ran
  split at ran
  · rename_i executed
    cases executed
    cases ran
    rfl
  · cases ran
  · cases ran

/-- A `setvol` which succeeds has set the volume. -/
theorem volume_retryCmd_success {env : CmdEnv} {volume : Int} {mpd mpd' : Mpd}
    (done : retryCmd env (fun _ mpd => some ((), { mpd with volume := volume })) mpd =
      (.success (), mpd')) : mpd'.volume = volume := by
  unfold retryCmd at done
  split at done
  · split at done
    · rename_i first
      cases done
      exact volume_run_some first
    · split at done
      · split at done
        · rename_i second
          cases done
          exact volume_run_some second
        · cases done
      · cases done
  · cases done

/-- A command which fails, and of which MPD has not lost a reply, leaves the volume. -/
theorem volume_retryCmd_failure {α : Type} {env : CmdEnv}
    {cmd : Nat → Mpd → Option (α × Mpd)} {mpd mpd' : Mpd} {end_ : Retried α}
    (heard : env.Heard) (failed : ∀ result, end_ ≠ .success result)
    (done : retryCmd env cmd mpd = (end_, mpd')) : mpd'.volume = mpd.volume := by
  unfold retryCmd at done
  split at done
  · split at done
    · cases done
      exact absurd rfl (failed _)
    · rename_i first
      have unchanged := volume_run_none heard.1 first
      split at done
      · split at done
        · cases done
          exact absurd rfl (failed _)
        · rename_i second
          cases done
          rw [volume_run_none heard.2 second, unchanged]
      · cases done
        exact unchanged
  · cases done
    rfl

/-- The second part of `setVolume` sets the volume everywhere and says so, or changes
nothing and says so. -/
theorem sendVolume_spec (w : World) (cli : MpdCli) (volume : Int) {env : CmdEnv}
    (heard : env.Heard) :
    let volume' := MpdCli.clampVolume volume
    let result := MpdCli.sendVolume w cli volume env
    (result.1 = true ∧ result.2.mpd.volume = volume' ∧ result.2.cli = cli.recordVolume volume') ∨
      (result.1 = false ∧ result.2.mpd.volume = w.mpd.volume ∧ result.2.cli = cli) := by
  unfold MpdCli.sendVolume
  dsimp only
  split
  · rename_i ran
    exact .inl ⟨rfl, volume_retryCmd_success ran, rfl⟩
  · rename_i ran
    exact .inr ⟨rfl, volume_retryCmd_failure heard (by simp) ran, rfl⟩
  · rename_i ran
    exact .inr ⟨rfl, volume_retryCmd_failure heard (by simp) ran, rfl⟩

@[simp] theorem getVolume_recordVolume (cli : MpdCli) {volume : Int} (nonneg : 0 ≤ volume) :
    (cli.recordVolume volume).getVolume = volume := by
  unfold MpdCli.getVolume MpdCli.recordVolume
  rw [if_pos nonneg]

end Upmpdcli
