import Upmpdcli.Lib.Machine
import Upmpdcli.OHInfo

set_option autoImplicit false

/- Whatever the order of the events and of the changes of the source, the override of the Info
service is one of an active radio. -/
namespace Upmpdcli

namespace OHProduct

variable {cfg : SourceConfig} (help : SourceHelp) {dev : Device cfg}

/-- The radio can only be active while the source stands for it, and leaving that one leaves it
inactive. -/
theorem radio_deactivate
    (placed : dev.ohrd.m_active = true → service dev.source = some .radio) (env : SwitchEnv) :
    (deactivate help dev env).2.ohrd.m_active = false := by
  have listed := listed_sources ((sources cfg).get_mem dev.m_sourceIndex)
  change Listed cfg dev.source at listed
  generalize here : dev.source = cur at listed placed
  have silent (other : service cur ≠ some .radio) : dev.ohrd.m_active = false :=
    Bool.eq_false_iff.mpr fun active => other (placed active)
  unfold deactivate
  dsimp only
  rw [here]
  cases listed with
  | playlist =>
      rw [if_pos rfl]
      exact silent (by decide)
  | radio ohrd =>
      rw [if_neg (by decide), if_neg (fun both => absurd both.2 (by decide)), if_pos ⟨ohrd, rfl⟩]
      exact OHRadio.active_setActive _ _ false env.radioOff
  | receiver ohrcv =>
      rw [if_neg (by decide), if_pos ⟨ohrcv, rfl⟩]
      exact silent (by decide)
  | senderPlaylist ohrcv sndrcv =>
      rw [if_neg (by decide), if_neg (fun both => absurd both.2 (by decide)),
        if_neg (fun both => absurd both.2 (by decide)), if_pos ⟨sndrcv, rfl⟩]
      exact silent (by decide)
  | senderRadio ohrcv sndrcv ohrd =>
      rw [if_neg (by decide), if_neg (fun both => absurd both.2 (by decide)),
        if_neg (fun both => absurd both.2 (by decide)),
        if_neg (fun both => absurd both.2 (by decide)), if_pos ⟨sndrcv, ohrd, rfl⟩]
      exact OHRadio.active_setActive _ _ false env.radioOff
  | script _ ohrcv external =>
      have other := @ne_of_external cur external
      rw [if_neg (other (by decide)), if_neg (fun both => other (by decide) both.2),
        if_neg (fun both => other (by decide) both.2),
        if_neg (fun both => other (by decide) both.2),
        if_neg (fun both => other (by decide) both.2.2)]
      refine silent ?_
      rw [service_of_external external]
      exact fun same => by cases same

/-- Only the name of the new source makes the radio active. -/
theorem radio_activate (inactive : dev.ohrd.m_active = false) (new : Source) (env : SwitchEnv)
    (active : (activate help dev new env).2.ohrd.m_active = true) :
    selects cfg new.name = some .radio := by
  have other : dev.ohrd.m_active ≠ true := Bool.eq_false_iff.mp inactive
  unfold activate at active
  unfold selects
  split at active
  · exact absurd active other
  · split at active
    · exact absurd active other
    · rename_i playlist receiver
      rw [if_neg playlist, if_neg receiver]
      split at active
      · rename_i radio
        rw [if_pos radio]
      · rename_i radio
        rw [if_neg radio]
        split at active
        · exact absurd active other
        · rename_i sending
          rw [if_neg sending]
          split at active
          · rename_i radio
            rw [if_pos radio]
          · exact absurd active other

end OHProduct

namespace OHInfo

variable (info : OHInfo) (metadata metatext : String)

theorem metadata_setMetadata :
    (info.setMetadata metadata metatext).m_metadata = info.overriding metadata metatext := by
  unfold setMetadata
  dsimp only
  split <;> rfl

theorem counts_setMetadata
    (changed : (info.setMetadata metadata metatext).m_metatext ≠ info.m_metatext) :
    info.m_metatextcnt < (info.setMetadata metadata metatext).m_metatextcnt := by
  unfold setMetadata at changed ⊢
  dsimp only at changed ⊢
  split at changed
  · rename_i other
    rw [if_pos other]
    exact Nat.lt_succ_self _
  · exact absurd rfl changed

end OHInfo

namespace InfoSystem

variable {cfg : SourceConfig} (help : InfoHelp) {s t : InfoSystem cfg}

/-- Without an override everything is about the song. -/
theorem describes_of_override (empty : s.info.m_metadata = "") : s.Describes help := by
  have same : s.info.urimetadata help s.mpds s.dev.ohpl = s.playing help := by
    unfold OHInfo.urimetadata playing
    rw [empty, if_neg (not_not.mpr rfl)]
    split
    · dsimp only
      cases s.dev.ohpl.cacheFind s.mpds.currentsong.rsrc.uri <;> rfl
    · rfl
  refine ⟨empty, ?_, ?_, ?_⟩
  · unfold OHInfo.track
    rw [same]
  · unfold OHInfo.makestate
    rw [same]
    rfl
  · unfold OHInfo.makestate
    rw [same]
    rfl

/-- The name of the source makes the radio active only if the source stands for it. -/
def Named (cfg : SourceConfig) (sindex : Fin (OHProduct.sources cfg).length) : Prop :=
  OHProduct.selects cfg ((OHProduct.sources cfg).get sindex).name = some .radio →
    OHProduct.service ((OHProduct.sources cfg).get sindex) = some .radio

/-- The source which an active radio belongs to, in each stage of a change. -/
def Placed (s : InfoSystem cfg) : Prop :=
  match s.switching with
  | none => s.dev.ohrd.m_active = true → OHProduct.service s.dev.source = some .radio
  | some ⟨sindex, .reset⟩ =>
      Named cfg sindex ∧
        (s.dev.ohrd.m_active = true → OHProduct.service s.dev.source = some .radio)
  | some ⟨sindex, .left⟩ => Named cfg sindex ∧ s.dev.ohrd.m_active = false
  | some ⟨sindex, .arrived⟩ =>
      s.dev.ohrd.m_active = true →
        OHProduct.service ((OHProduct.sources cfg).get sindex) = some .radio

/-- An override is one of an active radio which is not being left. -/
structure Inv (s : InfoSystem cfg) : Prop where
  placed : s.Placed
  override : s.info.m_metadata ≠ "" →
    s.dev.ohrd.m_active = true ∧ s.switching.map Switching.stage ≠ some .reset

theorem Inv.describes (inv : s.Inv) (other : s.NotRadio) : s.Describes help := by
  apply describes_of_override
  by_contra override
  have active := (inv.override override).1
  rcases other with inactive | ⟨idle, elsewhere⟩
  · rw [inactive] at active
    cases active
  · have placed := inv.placed
    unfold Placed at placed
    rw [idle] at placed
    exact elsewhere (placed active)

theorem Inv.switch (inv : s.Inv) (idle : s.switching = none) {sindex : Int}
    (named : ∀ source ∈ (OHProduct.sources cfg)[sindex.toNat]?,
      OHProduct.selects cfg source.name = some .radio → OHProduct.service source = some .radio) :
    (s.switch sindex).Inv := by
  have placed := inv.placed
  unfold Placed at placed
  rw [idle] at placed
  unfold InfoSystem.switch
  split
  · exact inv
  · dsimp only
    split
    · exact inv
    · exact ⟨⟨named _ (List.getElem?_eq_getElem _), placed⟩, fun override => absurd rfl override⟩

theorem Inv.leave (inv : s.Inv) {sindex : Fin (OHProduct.sources cfg).length}
    (here : s.switching = some ⟨sindex, .reset⟩) (env : SwitchEnv) :
    (s.leave help sindex env).Inv := by
  have placed := inv.placed
  unfold Placed at placed
  rw [here] at placed
  have silent (override : s.info.m_metadata ≠ "") : False :=
    (inv.override override).2 (by rw [here]; rfl)
  have inactive := OHProduct.radio_deactivate help.toSourceHelp placed.2 env
  unfold InfoSystem.leave
  split
  · rename_i dev left
    rw [left] at inactive
    refine ⟨fun active => ?_, fun override => (silent override).elim⟩
    exact absurd (inactive.symm.trans active) Bool.false_ne_true
  · rename_i dev left
    rw [left] at inactive
    exact ⟨⟨placed.1, inactive⟩, fun override => (silent override).elim⟩

theorem Inv.arrive (inv : s.Inv) {sindex : Fin (OHProduct.sources cfg).length}
    (here : s.switching = some ⟨sindex, .left⟩) (env : SwitchEnv) :
    (s.arrive help sindex env).Inv := by
  have placed := inv.placed
  unfold Placed at placed
  rw [here] at placed
  refine ⟨fun active => placed.1 ?_, fun override => ?_⟩
  · exact OHProduct.radio_activate help.toSourceHelp placed.2 _ env active
  · have active := (inv.override override).1
    exact absurd (placed.2.symm.trans active) Bool.false_ne_true

theorem Inv.finish (inv : s.Inv) {sindex : Fin (OHProduct.sources cfg).length}
    (here : s.switching = some ⟨sindex, .arrived⟩) : (s.finish sindex).Inv := by
  have placed := inv.placed
  unfold Placed at placed
  rw [here] at placed
  exact ⟨placed, fun override => ⟨(inv.override override).1, fun stage => by cases stage⟩⟩

theorem Inv.tellInfo (inv : s.Inv) {metadata metatext : String}
    (safe : s.info.overriding metadata metatext ≠ "" →
      s.dev.ohrd.m_active = true ∧ s.switching.map Switching.stage ≠ some .reset) :
    Inv { s with info := s.info.setMetadata metadata metatext, making := none } := by
  refine ⟨inv.placed, fun override => safe ?_⟩
  rw [← OHInfo.metadata_setMetadata]
  exact override

theorem Inv.change (inv : s.Inv) {dev : Device cfg} (details : RadioDetails) (audio : AudioDetails)
    (active : dev.ohrd.m_active = s.dev.ohrd.m_active)
    (source : dev.m_sourceIndex = s.dev.m_sourceIndex) : Inv { s with dev, details, audio } := by
  have same : dev.source = s.dev.source := congrArg (OHProduct.sources cfg).get source
  refine ⟨?_, fun override => by rw [active]; exact inv.override override⟩
  have placed := inv.placed
  unfold Placed at placed ⊢
  rw [← active, ← same] at placed
  exact placed

theorem Inv.step (inv : s.Inv) {action : Action cfg} {out : Unit} (safe : Safe s action t out)
    (taken : InfoSystem.step help s action = some (t, out)) : t.Inv := by
  cases action with
  | switch sindex =>
      obtain ⟨idle, same⟩ := Option.ite_none_right_eq_some.mp taken
      cases same
      exact inv.switch idle safe
  | leave env =>
      unfold InfoSystem.step at taken
      dsimp only at taken
      split at taken
      · rename_i sindex here
        cases taken
        exact inv.leave help here env
      · cases taken
  | arrive env =>
      unfold InfoSystem.step at taken
      dsimp only at taken
      split at taken
      · rename_i sindex here
        cases taken
        exact inv.arrive help here env
      · cases taken
  | finish =>
      unfold InfoSystem.step at taken
      dsimp only at taken
      split at taken
      · rename_i sindex here
        cases taken
        exact inv.finish here
      · cases taken
  | makeRadio env =>
      obtain ⟨-, same⟩ := Option.ite_none_right_eq_some.mp taken
      cases same
      exact ⟨inv.placed, inv.override⟩
  | tellInfo =>
      unfold InfoSystem.step at taken
      dsimp only at taken
      split at taken
      · rename_i metadata metatext told
        cases taken
        exact inv.tellInfo (safe (metadata, metatext) told)
      · cases taken
  | makeInfo =>
      cases taken
      exact ⟨inv.placed, inv.override⟩
  | change dev details audio =>
      obtain ⟨⟨active, source⟩, same⟩ := Option.ite_none_right_eq_some.mp taken
      cases same
      exact inv.change details audio active source

/-- Only the override and its reset change the text, and both count it. -/
theorem counts_step {action : Action cfg} {out : Unit}
    (taken : InfoSystem.step help s action = some (t, out)) : s.Counts action t out := by
  intro changed
  cases action with
  | switch sindex =>
      obtain ⟨-, same⟩ := Option.ite_none_right_eq_some.mp taken
      cases same
      unfold InfoSystem.switch at changed ⊢
      split at changed
      · exact absurd rfl changed
      · rename_i inside
        rw [dif_neg inside]
        dsimp only at changed ⊢
        split at changed
        · exact absurd rfl changed
        · rename_i other
          rw [if_neg other]
          exact Nat.lt_succ_self _
  | leave env =>
      unfold InfoSystem.step at taken
      dsimp only at taken
      split at taken
      · cases taken
        unfold InfoSystem.leave at changed
        split at changed
        · exact absurd rfl changed
        · exact absurd rfl changed
      · cases taken
  | arrive env =>
      unfold InfoSystem.step at taken
      dsimp only at taken
      split at taken
      · cases taken
        exact absurd rfl changed
      · cases taken
  | finish =>
      unfold InfoSystem.step at taken
      dsimp only at taken
      split at taken
      · cases taken
        exact absurd rfl changed
      · cases taken
  | makeRadio env =>
      obtain ⟨-, same⟩ := Option.ite_none_right_eq_some.mp taken
      cases same
      exact absurd rfl changed
  | tellInfo =>
      unfold InfoSystem.step at taken
      dsimp only at taken
      split at taken
      · cases taken
        exact OHInfo.counts_setMetadata _ _ _ changed
      · cases taken
  | makeInfo =>
      cases taken
      exact absurd rfl changed
  | change dev details audio =>
      obtain ⟨-, same⟩ := Option.ite_none_right_eq_some.mp taken
      cases same
      exact absurd rfl changed

theorem inv_initial (cfg : SourceConfig) (ohinfotexttodata : Bool) :
    (initial cfg ohinfotexttodata).Inv :=
  ⟨fun active => absurd active Bool.false_ne_true, fun override => absurd rfl override⟩

/-- In every order of events and changes of the source in which an override is only given while
the radio is active and not being left, the song is described whenever the radio is not the
source, and the text is always counted. -/
theorem describes_of_safe (cfg : SourceConfig) (help : InfoHelp) (ohinfotexttodata : Bool)
    (actions : List (Action cfg)) (last : InfoSystem cfg) (outs : List Unit)
    (safe : Machine.Along Safe (step help) (initial cfg ohinfotexttodata) actions)
    (ran : Machine.run (step help) (initial cfg ohinfotexttodata) actions = some (last, outs)) :
    (last.NotRadio → last.Describes help) ∧
      Machine.Along Counts (step help) (initial cfg ohinfotexttodata) actions := by
  have preserve (s : InfoSystem cfg) (action : Action cfg) (t : InfoSystem cfg) (out : Unit)
      (inv : s.Inv) (safe : s.Safe action t out) (taken : step help s action = some (t, out)) :
      t.Inv := inv.step help safe taken
  have inv : last.Inv :=
    Machine.invariant_of_run preserve _ last actions outs (inv_initial cfg ohinfotexttodata) safe
      ran
  have counts (s : InfoSystem cfg) (action : Action cfg) (t : InfoSystem cfg) (out : Unit)
      (_ : True) (_ : True) (taken : step help s action = some (t, out)) :
      True ∧ s.Counts action t out := ⟨trivial, counts_step help taken⟩
  exact ⟨inv.describes help,
    Machine.along_of_invariant counts _ actions trivial (Machine.along_true _ _ actions)⟩

/-- Functions of libupnpp which do little. -/
def plainHelp : InfoHelp where
  toPlaylistHelp := .plain
  base64_decode := id
  uMetaToUpSong := fun _ => none

/-- From the playlist to the radio. -/
def toRadio : List (Action {}) := [.switch 1, .leave {}, .arrive {}, .finish]

/-- The radio tells the Info service something, and then the playlist is chosen again. -/
theorem describes_after_radio :
    ∃ last outs, Machine.run (step plainHelp) (initial {} false)
        (toRadio ++ [.makeRadio {}, .tellInfo, .switch 0, .leave {}, .arrive {}, .finish]) =
          some (last, outs) ∧ last.Describes plainHelp := by
  have ends : ((Machine.run (step plainHelp) (initial {} false)
      (toRadio ++ [.makeRadio {}, .tellInfo, .switch 0, .leave {}, .arrive {}, .finish])).any
        fun found => decide found.1.NotRadio) = true := by
    decide
  obtain ⟨⟨last, outs⟩, ran, other⟩ := (Option.any_eq_true _ _).mp ends
  have described := describes_of_safe {} plainHelp false _ last outs (by decide) ran
  exact ⟨last, outs, ran, described.1 (of_decide_eq_true other)⟩

/-- An event between the reset of the metadata and the end of the radio leaves an override which
no song ever replaces. -/
theorem event_during_switch_overrides :
    ¬ ∀ (cfg : SourceConfig) (help : InfoHelp) (ohinfotexttodata : Bool)
      (actions : List (Action cfg)) (last : InfoSystem cfg) (outs : List Unit),
      Machine.run (step help) (initial cfg ohinfotexttodata) actions = some (last, outs) →
        (last.NotRadio → last.Describes help) ∧
          Machine.Along Counts (step help) (initial cfg ohinfotexttodata) actions := by
  intro described
  have ends : ((Machine.run (step plainHelp) (initial {} false)
      (toRadio ++ [.switch 0, .makeRadio {}, .tellInfo, .leave {}, .arrive {}, .finish])).any
        fun found => decide (found.1.NotRadio ∧ found.1.info.m_metadata ≠ "")) = true := by
    decide
  obtain ⟨⟨last, outs⟩, ran, both⟩ := (Option.any_eq_true _ _).mp ends
  obtain ⟨other, override⟩ := of_decide_eq_true both
  exact override ((described {} plainHelp false _ last outs ran).1 other).override

end InfoSystem

end Upmpdcli
