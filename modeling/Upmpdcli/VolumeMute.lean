import Upmpdcli.Volume

set_option autoImplicit false

namespace Upmpdcli

/-- What ties the volumes the client knows to the one MPD has: a client which believes
that the volume is 0 is right. -/
structure VolumesAgree (w : World) : Prop where
  premute : 0 ≤ w.cli.m_premutevolume
  cached : 0 ≤ w.cli.m_cachedvolume
  reported : w.cli.getVolume = 0 → w.mpd.volume = 0
  remembered : w.cli.m_cachedvolume = 0 → w.mpd.volume = 0

theorem volumesAgree_new (mpd : Mpd) : VolumesAgree { mpd := mpd } :=
  ⟨Int.le_refl 0, Int.natCast_nonneg 50, nofun, nofun⟩

theorem VolumesAgree.getVolume_nonneg {w : World} (agree : VolumesAgree w) :
    0 ≤ w.cli.getVolume := by
  have cached := agree.cached
  unfold MpdCli.getVolume
  split <;> omega

theorem volumesAgree_recordVolume {cli : MpdCli} {mpd : Mpd} {volume : Int}
    (premute : 0 ≤ cli.m_premutevolume) (nonneg : 0 ≤ volume) (same : mpd.volume = volume) :
    VolumesAgree { cli := cli.recordVolume volume, mpd := mpd } := by
  refine ⟨premute, nonneg, ?_, ?_⟩
  · rw [getVolume_recordVolume cli nonneg]
    intro zero
    rw [same, zero]
  · intro zero
    exact same.trans zero

/-- The second part of `setVolume` keeps the agreement the first part has left. -/
theorem volumesAgree_sendVolume {w : World} {cli : MpdCli}
    (agree : VolumesAgree { w with cli := cli }) (volume : Int) {env : CmdEnv}
    (heard : env.Heard) : VolumesAgree (MpdCli.sendVolume w cli volume env).2 := by
  have result := sendVolume_spec w cli volume heard
  dsimp only at result
  generalize MpdCli.sendVolume w cli volume env = sent at result
  obtain ⟨done, cli', mpd'⟩ := sent
  rcases result with ⟨-, set, rfl⟩ | ⟨-, same, rfl⟩
  · exact volumesAgree_recordVolume agree.premute (clampVolume_nonneg volume) set
  · refine ⟨agree.premute, agree.cached, fun zero => ?_, fun zero => ?_⟩
    · exact same.trans (agree.reported zero)
    · exact same.trans (agree.remembered zero)

theorem getVolume_sendVolume {w : World} {cli : MpdCli} {volume : Int} {env : CmdEnv}
    (heard : env.Heard) (done : (MpdCli.sendVolume w cli volume env).1 = true) :
    (MpdCli.sendVolume w cli volume env).2.mpd.volume = MpdCli.clampVolume volume ∧
      UpMpd.getvolume (MpdCli.sendVolume w cli volume env).2 = MpdCli.clampVolume volume := by
  rcases sendVolume_spec w cli volume heard with ⟨-, set, told⟩ | ⟨failed, -⟩
  · refine ⟨set, ?_⟩
    unfold UpMpd.getvolume
    rw [told, getVolume_recordVolume cli (clampVolume_nonneg volume)]
  · rw [failed] at done
    cases done

theorem volumesAgree_setvolume {w : World} (agree : VolumesAgree w) (volume : Int)
    {env : CmdEnv} (heard : env.Heard) : VolumesAgree (UpMpd.setvolume w volume env).2 := by
  unfold UpMpd.setvolume MpdCli.setVolume
  exact volumesAgree_sendVolume agree volume heard

theorem getvolume_setvolume {w : World} {volume : Int} {env : CmdEnv} (heard : env.Heard)
    (done : (UpMpd.setvolume w volume env).1 = true) :
    UpMpd.getvolume (UpMpd.setvolume w volume env).2 = MpdCli.clampVolume volume :=
  (getVolume_sendVolume heard done).2

/-- The end of mute: the saved volume comes back, or volume 1. -/
theorem setmute_false {w : World} (agree : VolumesAgree w) {env : CmdEnv} (heard : env.Heard) :
    VolumesAgree (UpMpd.setmute w false env).2 ∧
      ((UpMpd.setmute w false env).1 = true →
        0 < UpMpd.getvolume (UpMpd.setmute w false env).2) := by
  have premute := agree.premute
  rw [setmute_false_eq]
  split
  · rename_i saved
    have agree' : VolumesAgree { w with cli := { w.cli with
        m_stat := { w.cli.m_stat with volume := w.cli.m_premutevolume }
        m_premutevolume := 0 } } := by
      refine ⟨Int.le_refl _, agree.cached, fun zero => ?_, agree.remembered⟩
      unfold MpdCli.getVolume at zero
      rw [if_pos premute] at zero
      exact absurd zero saved
    refine ⟨volumesAgree_sendVolume agree' _ heard, fun done => ?_⟩
    rw [(getVolume_sendVolume heard done).2]
    have positive := clampVolume_eq_zero_iff w.cli.m_premutevolume
    have nonneg := clampVolume_nonneg w.cli.m_premutevolume
    omega
  · have agree' : VolumesAgree { w with cli := { w.cli with m_premutevolume := 0 } } :=
      ⟨Int.le_refl _, agree.cached, agree.reported, agree.remembered⟩
    refine ⟨volumesAgree_sendVolume agree' _ heard, fun done => ?_⟩
    rw [(getVolume_sendVolume heard done).2]
    decide

/-- A mute request sets volume 0, unless a saved volume makes it believe that this is
done. -/
theorem setmute_true {w : World} (agree : VolumesAgree w) {env : CmdEnv} (heard : env.Heard) :
    VolumesAgree (UpMpd.setmute w true env).2 ∧
      ((UpMpd.setmute w true env).1 = true →
        w.cli.m_premutevolume = 0 ∨ UpMpd.getvolume w = 0 →
          (UpMpd.setmute w true env).2.mpd.volume = 0 ∧
            UpMpd.getvolume (UpMpd.setmute w true env).2 = 0) := by
  have premute := agree.premute
  rw [setmute_true_eq]
  split
  · rename_i saved
    refine ⟨agree, fun _ believed => ?_⟩
    have silent : UpMpd.getvolume w = 0 := by omega
    exact ⟨agree.reported silent, silent⟩
  · have agree' (premute : Int) (nonneg : 0 ≤ premute) :
        VolumesAgree { w with cli := { w.cli with m_premutevolume := premute } } :=
      ⟨nonneg, agree.cached, agree.reported, agree.remembered⟩
    refine ⟨volumesAgree_sendVolume (agree' _ ?_) 0 heard, fun done _ => ?_⟩
    · split <;> omega
    · exact getVolume_sendVolume heard done

theorem volumesAgree_updStatus {w : World} (agree : VolumesAgree w) (env : StatusEnv) :
    VolumesAgree (updStatus w env).1 := by
  obtain ⟨mpd, premute, told⟩ := volume_updStatus w env
  by_cases answered : env.answered = true
  · obtain ⟨same, source⟩ := told answered
    have nonneg : 0 ≤ (updStatus w env).1.cli.m_cachedvolume := by
      have cached := agree.cached
      omega
    have remembered : (updStatus w env).1.cli.m_cachedvolume = 0 →
        (updStatus w env).1.mpd.volume = 0 := by
      intro zero
      rw [mpd]
      rcases source with ⟨-, fresh⟩ | old
      · exact fresh.symm.trans zero
      · exact agree.remembered (old.symm.trans zero)
    refine ⟨premute ▸ agree.premute, nonneg, fun zero => remembered ?_, remembered⟩
    rwa [MpdCli.getVolume, if_pos (by omega), same] at zero
  · have kept : (updStatus w env).1.cli = w.cli := by
      unfold updStatus
      rw [if_neg answered]
    refine ⟨kept ▸ agree.premute, kept ▸ agree.cached, ?_, ?_⟩
    · rw [kept, mpd]
      exact agree.reported
    · rw [kept, mpd]
      exact agree.remembered

theorem reportsMute_of_getvolume {w : World} (nonneg : 0 ≤ UpMpd.getvolume w) {muted : Bool}
    (volume : UpMpd.getvolume w = 0 ↔ muted = true) : ReportsMute w muted := by
  have same : decide (UpMpd.getvolume w = 0) = muted := by
    cases muted <;> simp_all
  refine ⟨?_, ?_, ?_, ?_⟩
  · rw [OHVolume.mute, same]
  · simp [OHVolume.makestate, same, List.lookup_cons]
  · simp [RenderingControl.getMute, RenderingControl.onMaster, same]
  · have kept : (if UpMpd.getvolume w < 0 then 0 else UpMpd.getvolume w) = UpMpd.getvolume w :=
      if_neg (by omega)
    simp [RenderingControl.rdstateMToU, kept, same, List.lookup_cons]

namespace VolumeDemand

theorem volumesAgree_execute {w : World} (agree : VolumesAgree w) {env : CmdEnv}
    (heard : env.Heard) (demand : VolumeDemand) : VolumesAgree (demand.execute w env).2 := by
  cases demand with
  | volume value => exact volumesAgree_setvolume agree value heard
  | mute onoff =>
      cases onoff with
      | false => exact (setmute_false agree heard).1
      | true => exact (setmute_true agree heard).1
  | inc => exact volumesAgree_setvolume agree _ heard
  | dec => exact volumesAgree_setvolume agree _ heard

/-- What a demand is to lead to. A step down from 1 or from 0 leads to 0, which is mute.
Nothing is said of a mute request while a saved volume stands beside an audible one. -/
def Met (w : World) (demand : VolumeDemand) (next : World) : Prop :=
  match demand with
  | .mute true =>
      w.cli.m_premutevolume = 0 ∨ UpMpd.getvolume w = 0 →
        next.mpd.volume = 0 ∧ ReportsMute next true
  | .mute false => ReportsMute next false
  | .volume value => 0 < value → ReportsMute next false
  | .inc => ReportsMute next false
  | .dec => ReportsMute next (UpMpd.getvolume w ≤ 1)

theorem reportsMute_setvolume {w : World} {volume : Int} {env : CmdEnv} (heard : env.Heard)
    (done : (UpMpd.setvolume w volume env).1 = true) :
    ReportsMute (UpMpd.setvolume w volume env).2 (volume ≤ 0) := by
  have told := getvolume_setvolume heard done
  apply reportsMute_of_getvolume
  · rw [told]
    exact clampVolume_nonneg volume
  · rw [told, clampVolume_eq_zero_iff, decide_eq_true_iff]

theorem met_execute {w : World} (agree : VolumesAgree w) {env : CmdEnv} (heard : env.Heard)
    (demand : VolumeDemand) (done : (demand.execute w env).1 = true) :
    demand.Met w (demand.execute w env).2 := by
  have nonneg : 0 ≤ UpMpd.getvolume w := agree.getVolume_nonneg
  cases demand with
  | volume value =>
      intro positive
      have reported := reportsMute_setvolume heard done
      rwa [decide_eq_false (by omega)] at reported
  | mute onoff =>
      cases onoff with
      | false =>
          have audible := (setmute_false agree heard).2 done
          apply reportsMute_of_getvolume
          · exact Int.le_of_lt audible
          · simp only [Bool.false_eq_true, iff_false]
            exact Int.ne_of_gt audible
      | true =>
          intro believed
          obtain ⟨mpd, silent⟩ := (setmute_true agree heard).2 done believed
          refine ⟨mpd, reportsMute_of_getvolume (Int.le_of_eq silent.symm) ?_⟩
          exact iff_of_true silent rfl
  | inc =>
      have reported := reportsMute_setvolume heard done
      rwa [decide_eq_false] at reported
      split <;> omega
  | dec =>
      have reported := reportsMute_setvolume heard done
      have zero : (if UpMpd.getvolume w - 1 < 0 then 0 else UpMpd.getvolume w - 1) ≤ 0 ↔
          UpMpd.getvolume w ≤ 1 := by
        split <;> omega
      rwa [decide_eq_decide.mpr zero] at reported

end VolumeDemand

namespace VolumeAct

theorem onMaster_success {channel : Option String} {w : World} {action : VolumeReply × World}
    (success : (RenderingControl.onMaster channel ({ code := .invalidParam }, w) action).1.code =
      .success) :
    RenderingControl.onMaster channel ({ code := .invalidParam }, w) action = action := by
  unfold RenderingControl.onMaster at success ⊢
  split
  · rfl
  · rename_i other
    rw [if_neg other] at success
    cases success

/-- A service which accepts an action has the device execute what it asks for. -/
theorem perform_of_success {w : World} {action : VolumeAct} {demand : VolumeDemand}
    (asked : action.demand = some demand) (success : (action.perform w).1.code = .success) :
    ((action.perform w).1.done, (action.perform w).2) = demand.execute w action.env := by
  cases action with
  | ohSetVolume value env =>
      obtain ⟨volume, rfl, rfl⟩ := Option.map_eq_some_iff.mp asked
      rfl
  | ohSetMute value env =>
      obtain ⟨onoff, rfl, rfl⟩ := Option.map_eq_some_iff.mp asked
      rfl
  | ohVolumeInc env =>
      cases asked
      rfl
  | ohVolumeDec env =>
      cases asked
      rfl
  | rcSetVolume channel desired env =>
      obtain ⟨desired, rfl, rfl⟩ := Option.map_eq_some_iff.mp asked
      simp only [perform, RenderingControl.setVolume] at success ⊢
      rw [onMaster_success success]
      rw [onMaster_success success] at success
      split
      · rename_i outside
        rw [if_pos outside] at success
        cases success
      · rfl
  | rcSetMute channel desired env =>
      obtain ⟨desired, rfl, rfl⟩ := Option.map_eq_some_iff.mp asked
      simp only [perform, RenderingControl.setMute] at success ⊢
      rw [onMaster_success success]
      rw [onMaster_success success] at success
      split
      · rename_i off
        have notOn : ¬ (desired.toList.head? = some 'T' ∨ desired.toList.head? = some '1') := by
          rcases off with first | first <;> rw [first] <;> decide
        rw [decide_eq_false notOn]
        rfl
      · rename_i notOff
        rw [if_neg notOff] at success
        split
        · rename_i on
          rw [decide_eq_true on]
          rfl
        · rename_i notOn
          rw [if_neg notOn] at success
          cases success
  | rcSelectPreset presetnm env =>
      cases asked
      simp only [perform, RenderingControl.selectPreset] at success ⊢
      split
      · rfl
      · rename_i other
        rw [if_neg other] at success
        cases success
  | updStatus env => cases asked

theorem onMaster_refused {channel : Option String} {w : World} {action : VolumeReply × World}
    (refused : (RenderingControl.onMaster channel ({ code := .invalidParam }, w) action).1.code ≠
      .success) (kept : action.1.code ≠ .success → action.2 = w) :
    (RenderingControl.onMaster channel ({ code := .invalidParam }, w) action).2 = w := by
  unfold RenderingControl.onMaster at refused ⊢
  split
  · rename_i master
    rw [if_pos master] at refused
    exact kept refused
  · rfl

/-- A refused action changes nothing. -/
theorem perform_of_refused {w : World} {action : VolumeAct}
    (refused : (action.perform w).1.code ≠ .success) : (action.perform w).2 = w := by
  cases action with
  | ohSetVolume value env =>
      cases value with
      | none => rfl
      | some volume => exact absurd rfl refused
  | ohSetMute value env =>
      cases value with
      | none => rfl
      | some onoff => exact absurd rfl refused
  | ohVolumeInc env => exact absurd rfl refused
  | ohVolumeDec env => exact absurd rfl refused
  | rcSetVolume channel desired env =>
      apply onMaster_refused refused
      intro refused
      cases desired with
      | none => rfl
      | some desired =>
          dsimp only at refused ⊢
          split
          · rfl
          · rename_i inside
            rw [if_neg inside] at refused
            exact absurd rfl refused
  | rcSetMute channel desired env =>
      apply onMaster_refused refused
      intro refused
      cases desired with
      | none => rfl
      | some desired =>
          dsimp only at refused ⊢
          split
          · rename_i off
            rw [if_pos off] at refused
            exact absurd rfl refused
          · rename_i notOff
            rw [if_neg notOff] at refused
            split
            · rename_i on
              rw [if_pos on] at refused
              exact absurd rfl refused
            · rfl
  | rcSelectPreset presetnm env =>
      unfold perform RenderingControl.selectPreset at refused ⊢
      dsimp only at refused ⊢
      split
      · rename_i default
        rw [if_pos default] at refused
        exact absurd rfl refused
      · rfl
  | updStatus env => exact absurd rfl refused

/-- An accepted action which asks for nothing is a status request. -/
theorem perform_of_nothing {w : World} {action : VolumeAct} (asked : action.demand = none)
    (success : (action.perform w).1.code = .success) :
    ∃ env, (action.perform w).2 = (Upmpdcli.updStatus w env).1 := by
  cases action with
  | ohSetVolume value env =>
      rw [Option.map_eq_none_iff.mp asked] at success
      cases success
  | ohSetMute value env =>
      rw [Option.map_eq_none_iff.mp asked] at success
      cases success
  | ohVolumeInc env => cases asked
  | ohVolumeDec env => cases asked
  | rcSetVolume channel desired env =>
      rw [Option.map_eq_none_iff.mp asked] at success
      have refused := onMaster_success success
      rw [perform, RenderingControl.setVolume, refused] at success
      cases success
  | rcSetMute channel desired env =>
      rw [Option.map_eq_none_iff.mp asked] at success
      have refused := onMaster_success success
      rw [perform, RenderingControl.setMute, refused] at success
      cases success
  | rcSelectPreset presetnm env => cases asked
  | updStatus env => exact ⟨env, rfl⟩

theorem volumesAgree_perform {w : World} (agree : VolumesAgree w) {action : VolumeAct}
    (heard : action.env.Heard) : VolumesAgree (action.perform w).2 := by
  by_cases success : (action.perform w).1.code = .success
  · cases asked : action.demand with
    | none =>
        obtain ⟨env, same⟩ := perform_of_nothing asked success
        rw [same]
        exact volumesAgree_updStatus agree env
    | some demand =>
        rw [← congrArg Prod.snd (perform_of_success asked success).symm]
        exact demand.volumesAgree_execute agree heard
  · rw [perform_of_refused success]
    exact agree

/-- A demand which the service accepts and the device executes leads to what `met` says. -/
def Obeyed (met : World → VolumeDemand → World → Prop) (w : World) (action : VolumeAct)
    (next : World) (reply : VolumeReply) : Prop :=
  ∀ demand ∈ action.demand, reply.code = .success ∧ reply.done = true → met w demand next

/-- In every run of the volume actions of both services and of status requests, each demand
is met. -/
theorem volume_obeyed (mpd : Mpd) (actions : List VolumeAct)
    (heard : ∀ action ∈ actions, action.env.Heard) :
    Machine.Along (Obeyed fun w demand => demand.Met w) step { mpd := mpd } actions := by
  have preserve (s : World) (a : VolumeAct) (t : World) (b : VolumeReply)
      (agree : VolumesAgree s) (heard : True ∧ a.env.Heard) (taken : step s a = some (t, b)) :
      VolumesAgree t ∧ Obeyed (fun w demand => demand.Met w) s a t b := by
    cases taken
    refine ⟨volumesAgree_perform agree heard.2, fun demand asked done => ?_⟩
    have executed := perform_of_success asked done.1
    have met := demand.met_execute agree heard.2 (by rw [← executed]; exact done.2)
    rwa [← executed] at met
  exact Machine.along_of_invariant preserve _ actions (volumesAgree_new mpd)
    (Machine.along_and_of_forall _ actions heard (Machine.along_true step _ actions))

/-- A mute and its end, with a step of the volume between them. -/
theorem volume_obeyed_mute :
    Machine.Along (Obeyed fun w demand => demand.Met w) step { mpd := {} }
      [.ohSetMute (some true) {}, .ohVolumeInc {}, .rcSetMute (some "Master") (some "0") {}] :=
  volume_obeyed {} _ (by decide)

end VolumeAct

/-- What a demand would lead to if no step could end in a mute, and if every mute request
were executed. -/
def VolumeDemand.Ideal (demand : VolumeDemand) (next : World) : Prop :=
  match demand with
  | .mute true => next.mpd.volume = 0 ∧ ReportsMute next true
  | .mute false => ReportsMute next false
  | .volume value => 0 < value → ReportsMute next false
  | .inc => ReportsMute next false
  | .dec => ReportsMute next false

instance (next : World) : ∀ demand : VolumeDemand, Decidable (demand.Ideal next)
  | .mute true => inferInstanceAs (Decidable (_ ∧ _))
  | .mute false | .inc | .dec => inferInstanceAs (Decidable (ReportsMute _ _))
  | .volume _ => inferInstanceAs (Decidable (_ → _))

instance (w : World) (action : VolumeAct) (next : World) (reply : VolumeReply) :
    Decidable (VolumeAct.Obeyed (fun _ demand => demand.Ideal) w action next reply) :=
  inferInstanceAs (Decidable (∀ demand ∈ action.demand, _))

namespace VolumeAct

/-- A step down from volume 1 ends in a mute. A mute request after a mute and a step of the
volume is not executed. -/
theorem volume_not_ideal :
    ¬ Machine.Along (Obeyed fun _ demand => demand.Ideal) step
        { mpd := {} } [.ohSetVolume (some 1) {}, .ohVolumeDec {}] ∧
      ¬ Machine.Along (Obeyed fun _ demand => demand.Ideal) step { mpd := {} }
        [.ohSetMute (some true) {}, .ohVolumeInc {}, .ohSetMute (some true) {}] := by
  constructor
  · decide
  · decide

end VolumeAct

end Upmpdcli
