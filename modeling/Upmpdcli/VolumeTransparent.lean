import Upmpdcli.VolumeMute

set_option autoImplicit false

/- Mute requests one after the other: what a mute and its end, or a request made twice, do to
the volume. -/
namespace Upmpdcli

/-- MPD has this volume, and the device reports it. -/
def InForce (w : World) (volume : Int) : Prop := w.mpd.volume = volume ∧ UpMpd.getvolume w = volume

instance (w : World) (volume : Int) : Decidable (InForce w volume) :=
  inferInstanceAs (Decidable (_ ∧ _))

namespace MpdCli

/-- The volume a mute request leaves saved. -/
def muteSaves (cli : MpdCli) : Int :=
  if cli.m_premutevolume > 0 then cli.m_premutevolume
  else if cli.m_cachedvolume > 0 then cli.m_cachedvolume
  else 1

/-- The volume the end of mute asks for. -/
def unmuteAsks (cli : MpdCli) : Int := if cli.m_premutevolume ≠ 0 then cli.m_premutevolume else 1

theorem muteSaves_pos (cli : MpdCli) : 0 < cli.muteSaves := by
  unfold muteSaves
  split
  · assumption
  · split
    · assumption
    · decide

end MpdCli

theorem clampVolume_eq_one_iff (volume : Int) : MpdCli.clampVolume volume = 1 ↔ volume = 1 := by
  unfold MpdCli.clampVolume
  split
  · omega
  · split <;> omega

/-- What a successful `setvol` leaves, whatever has become of the replies before. -/
theorem sendVolume_done {w w' : World} {cli : MpdCli} {volume : Int} {env : CmdEnv}
    (done : MpdCli.sendVolume w cli volume env = (true, w')) :
    InForce w' (MpdCli.clampVolume volume) ∧
      w'.cli = cli.recordVolume (MpdCli.clampVolume volume) := by
  unfold MpdCli.sendVolume at done
  dsimp only at done
  split at done
  · rename_i ran
    cases done
    refine ⟨⟨volume_retryCmd_success ran, ?_⟩, rfl⟩
    exact getVolume_recordVolume cli (clampVolume_nonneg volume)
  · cases done
  · cases done

/-- The end of mute leaves no saved volume. -/
theorem setmute_false_done {w w' : World} {env : CmdEnv}
    (done : UpMpd.setmute w false env = (true, w')) :
    InForce w' (MpdCli.clampVolume w.cli.unmuteAsks) ∧ w'.cli.m_premutevolume = 0 := by
  rw [setmute_false_eq] at done
  unfold MpdCli.unmuteAsks
  split at done
  · rename_i saved
    obtain ⟨force, cli⟩ := sendVolume_done done
    rw [if_pos saved, cli]
    exact ⟨force, rfl⟩
  · rename_i none
    obtain ⟨force, cli⟩ := sendVolume_done done
    rw [if_neg none, cli]
    exact ⟨force, rfl⟩

theorem setmute_true_done {w w' : World} {env : CmdEnv}
    (done : UpMpd.setmute w true env = (true, w')) :
    w'.cli.m_premutevolume = w.cli.muteSaves ∧
      (w.cli.m_premutevolume > 0 → w' = w) := by
  rw [setmute_true_eq] at done
  unfold MpdCli.muteSaves
  split at done
  · rename_i saved
    cases done
    exact ⟨(if_pos saved).symm, fun _ => rfl⟩
  · rename_i none
    obtain ⟨-, cli⟩ := sendVolume_done done
    rw [if_neg none, cli]
    exact ⟨rfl, fun saved => absurd saved none⟩

namespace VolumeAct

/-- A `SetMute` of one of the two services, which is accepted and executed. -/
structure Mutes (action : VolumeAct) (onoff : Bool) (w w' : World) : Prop where
  asked : action.demand = some (.mute onoff)
  accepted : (action.perform w).1.code = .success
  done : (action.perform w).1.done = true
  after : (action.perform w).2 = w'

theorem Mutes.setmute {action : VolumeAct} {onoff : Bool} {w w' : World}
    (mutes : action.Mutes onoff w w') : UpMpd.setmute w onoff action.env = (true, w') := by
  have executed := perform_of_success mutes.asked mutes.accepted
  rw [mutes.done, mutes.after] at executed
  exact executed.symm

/-- There is always one. -/
theorem exists_mutes (onoff : Bool) (w : World) : ∃ action : VolumeAct, ∃ w',
    action.Mutes onoff w w' := by
  refine ⟨.ohSetMute (some onoff) {}, _, rfl, rfl, ?_, rfl⟩
  show (UpMpd.setmute w onoff {}).1 = true
  cases onoff with
  | false =>
      rw [setmute_false_eq]
      split <;> rfl
  | true =>
      rw [setmute_true_eq]
      split <;> rfl

end VolumeAct

/-- A mute and its end restore the volume in force before. -/
def MuteRestores (w : World) : Prop :=
  ∀ (mute unmute : VolumeAct) (w₁ w₂ : World), mute.Mutes true w w₁ → unmute.Mutes false w₁ w₂ →
    w₂.mpd.volume = w.mpd.volume ∧ UpMpd.getvolume w₂ = UpMpd.getvolume w

/-- A request made twice is the same as once. -/
def TwiceAsOnce (onoff : Bool) (w : World) : Prop :=
  ∀ (first second : VolumeAct) (w₁ w₂ : World), first.Mutes onoff w w₁ →
    second.Mutes onoff w₁ w₂ →
    w₂.mpd.volume = w₁.mpd.volume ∧ UpMpd.getvolume w₂ = UpMpd.getvolume w₁ ∧
      w₂.cli.m_premutevolume = w₁.cli.m_premutevolume

/-- The end of a mute which there is not leaves the volume unchanged. -/
def UnmuteLeaves (w : World) : Prop :=
  ∀ (unmute : VolumeAct) (w₁ : World), unmute.Mutes false w w₁ →
    w₁.mpd.volume = w.mpd.volume ∧ UpMpd.getvolume w₁ = UpMpd.getvolume w

theorem InForce.same_iff {w w' : World} {volume : Int} (force : InForce w' volume) :
    (w'.mpd.volume = w.mpd.volume ∧ UpMpd.getvolume w' = UpMpd.getvolume w) ↔
      InForce w volume := by
  rw [force.1, force.2, InForce, eq_comm (a := volume), eq_comm (a := volume)]

theorem muteRestores_iff (w : World) :
    MuteRestores w ↔ InForce w (MpdCli.clampVolume w.cli.muteSaves) := by
  have result {mute unmute : VolumeAct} {w₁ w₂ : World} (first : mute.Mutes true w w₁)
      (second : unmute.Mutes false w₁ w₂) :
      InForce w₂ (MpdCli.clampVolume w.cli.muteSaves) := by
    obtain ⟨saved, -⟩ := setmute_true_done first.setmute
    obtain ⟨force, -⟩ := setmute_false_done second.setmute
    have positive := w.cli.muteSaves_pos
    rw [MpdCli.unmuteAsks, saved, if_pos (by omega)] at force
    exact force
  constructor
  · intro restores
    obtain ⟨mute, w₁, first⟩ := VolumeAct.exists_mutes true w
    obtain ⟨unmute, w₂, second⟩ := VolumeAct.exists_mutes false w₁
    exact (result first second).same_iff.mp (restores mute unmute w₁ w₂ first second)
  · intro force mute unmute w₁ w₂ first second
    exact (result first second).same_iff.mpr force

/-- The second of two mute requests finds a saved volume. -/
theorem twiceAsOnce_true (w : World) : TwiceAsOnce true w := by
  intro first second w₁ w₂ mutes again
  obtain ⟨saved, -⟩ := setmute_true_done mutes.setmute
  obtain ⟨-, same⟩ := setmute_true_done again.setmute
  have positive := w.cli.muteSaves_pos
  rw [same (by omega)]
  exact ⟨rfl, rfl, rfl⟩

theorem twiceAsOnce_false_iff (w : World) :
    TwiceAsOnce false w ↔ w.cli.m_premutevolume = 0 ∨ w.cli.m_premutevolume = 1 := by
  have asks : MpdCli.clampVolume w.cli.unmuteAsks = 1 ↔
      w.cli.m_premutevolume = 0 ∨ w.cli.m_premutevolume = 1 := by
    rw [clampVolume_eq_one_iff, MpdCli.unmuteAsks]
    split <;> omega
  have result {first second : VolumeAct} {w₁ w₂ : World} (mutes : first.Mutes false w w₁)
      (again : second.Mutes false w₁ w₂) :
      InForce w₁ (MpdCli.clampVolume w.cli.unmuteAsks) ∧ InForce w₂ 1 ∧
        w₂.cli.m_premutevolume = w₁.cli.m_premutevolume := by
    obtain ⟨force, none⟩ := setmute_false_done mutes.setmute
    obtain ⟨force', none'⟩ := setmute_false_done again.setmute
    rw [MpdCli.unmuteAsks, if_neg (not_not.mpr none)] at force'
    exact ⟨force, force', none'.trans none.symm⟩
  rw [← asks]
  constructor
  · intro same
    obtain ⟨first, w₁, mutes⟩ := VolumeAct.exists_mutes false w
    obtain ⟨second, w₂, again⟩ := VolumeAct.exists_mutes false w₁
    obtain ⟨force, force', -⟩ := result mutes again
    rw [← force.1, ← force'.1]
    exact (same first second w₁ w₂ mutes again).1.symm
  · intro one first second w₁ w₂ mutes again
    obtain ⟨force, force', none⟩ := result mutes again
    rw [one] at force
    exact ⟨force'.1.trans force.1.symm, force'.2.trans force.2.symm, none⟩

theorem unmuteLeaves_iff (w : World) :
    UnmuteLeaves w ↔ InForce w (MpdCli.clampVolume w.cli.unmuteAsks) := by
  constructor
  · intro leaves
    obtain ⟨unmute, w₁, mutes⟩ := VolumeAct.exists_mutes false w
    exact (setmute_false_done mutes.setmute).1.same_iff.mp (leaves unmute w₁ mutes)
  · intro force unmute w₁ mutes
    exact (setmute_false_done mutes.setmute).1.same_iff.mpr force

/-- When a mute is transparent, law by law. -/
theorem muteLaws_iff (w : World) :
    (MuteRestores w ↔ InForce w (MpdCli.clampVolume w.cli.muteSaves)) ∧ TwiceAsOnce true w ∧
      (TwiceAsOnce false w ↔ w.cli.m_premutevolume = 0 ∨ w.cli.m_premutevolume = 1) ∧
      (UnmuteLeaves w ↔ InForce w (MpdCli.clampVolume w.cli.unmuteAsks)) :=
  ⟨muteRestores_iff w, twiceAsOnce_true w, twiceAsOnce_false_iff w, unmuteLeaves_iff w⟩

/-- Volume 50, and no mute: the end of mute sets volume 1. A volume step during a mute is
lost with it, and the second end of mute sets volume 1. -/
theorem unmute_not_transparent :
    (∃ w replies, Machine.run VolumeAct.step { mpd := { volume := 50 } } [.updStatus {}] =
        some (w, replies) ∧ InForce w 50 ∧ ¬ UnmuteLeaves w) ∧
      ∃ w replies, Machine.run VolumeAct.step { mpd := { volume := 50 } }
          [.updStatus {}, .ohSetMute (some true) {}, .ohVolumeInc {}] = some (w, replies) ∧
        InForce w 1 ∧ ¬ MuteRestores w ∧ ¬ TwiceAsOnce false w := by
  constructor
  · refine ⟨_, _, rfl, by decide, ?_⟩
    rw [unmuteLeaves_iff]
    decide
  · refine ⟨_, _, rfl, by decide, ?_, ?_⟩
    · rw [muteRestores_iff]
      decide
    · rw [twiceAsOnce_false_iff]
      decide

end Upmpdcli
