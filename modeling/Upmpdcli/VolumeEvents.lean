import Std.Data.String.ToInt
import Upmpdcli.Volume

set_option autoImplicit false

/- What the subscribers of the OpenHome Volume service are told of the volume. Its actions
tell them at once, beside the stored state which the next event is compared with. -/
namespace Upmpdcli

/-- The device with the Volume service. `ticked` is the volume of the last event, `notified`
the last one an action has sent since, and `settled` says that the volume has not changed
since. -/
structure VolumeRun where
  w : World
  service : OHService
  ticked : Int
  notified : Option Int := none
  settled : Bool := true

/-- An action of one of the two services or a status request, what becomes of MPD and its
mixer, and an event of the Volume service. -/
inductive VolumeEvent
  | act (action : VolumeAct)
  | mpd (mpd : Mpd)
  | tick

namespace OHVolume

def value (w : World) (name : String) : String := ((makestate w).lookup name).getD ""

theorem makestate_value (w : World) : OHServiceKind.makestate .volume (value w) = makestate w := rfl

theorem lookup_volume (w : World) :
    (makestate w).lookup "Volume" = some (toString (UpMpd.getvolume w)) := rfl

theorem lookup_mute (w : World) :
    (makestate w).lookup "Mute" = some (flag (UpMpd.getvolume w = 0)) := rfl

end OHVolume

namespace VolumeRun

def step (s : VolumeRun) : VolumeEvent → Option (VolumeRun × Unit)
  | .act action =>
      let (reply, w) := action.perform s.w
      let service := { s.service with value := OHVolume.value w }
      let told :=
        match reply.notified with
        | some volume => service.notifyEvent [("Volume", toString volume)]
        | none => service
      some ({ s with
        w := w
        service := told
        notified := reply.notified.or s.notified
        settled := s.settled && UpMpd.getvolume w = UpMpd.getvolume s.w }, ())
  | .mpd mpd => some ({ s with w := { s.w with mpd := mpd } }, ())
  | .tick =>
      some ({ s with
        service := s.service.onEvent .volume
        ticked := UpMpd.getvolume s.w
        notified := none
        settled := true }, ())

/-- What is wanted: once an event has followed the last change, every subscriber has last
been told the current volume and mute state. -/
def ToldCurrent (_ : VolumeRun) (_ : VolumeEvent) (t : VolumeRun) (_ : Unit) : Prop :=
  t.settled = true → ∀ replica ∈ t.service.subscribers,
    replica.lookup "Volume" = some (toString (UpMpd.getvolume t.w)) ∧
      replica.lookup "Mute" = some (flag (UpMpd.getvolume t.w = 0))

/-- The condition on each step: an event which finds the volume of the event before it does
not come after an action which has sent another one. -/
def NotUndone (s : VolumeRun) (event : VolumeEvent) (_ : VolumeRun) (_ : Unit) : Prop :=
  match event with
  | .tick => UpMpd.getvolume s.w = s.ticked → ∀ volume ∈ s.notified, volume = s.ticked
  | _ => True

instance (s t : VolumeRun) (event : VolumeEvent) (out : Unit) :
    Decidable (ToldCurrent s event t out) := inferInstanceAs (Decidable (_ → _))

/-- Some clients have subscribed. -/
def new (w : World) (others : Nat) : VolumeRun :=
  { w := w
    service :=
      { m_state := OHVolume.makestate w
        value := OHVolume.value w
        subscribers := List.replicate (others + 1) (OHVolume.makestate w) }
    ticked := UpMpd.getvolume w }

/-- What the subscribers have, and the stored state, come from the volumes sent to them. -/
structure Tracks (s : VolumeRun) : Prop where
  value : s.service.value = OHVolume.value s.w
  stored : ∃ w, s.service.m_state = OHVolume.makestate w ∧ UpMpd.getvolume w = s.ticked
  someone : s.service.subscribers ≠ []
  volume : ∀ replica ∈ s.service.subscribers,
    replica.lookup "Volume" = some (toString (s.notified.getD s.ticked))
  mute : ∀ replica ∈ s.service.subscribers,
    replica.lookup "Mute" = some (flag (s.ticked = 0))
  settled : s.settled = true → UpMpd.getvolume s.w = s.ticked ∧ s.notified.getD s.ticked = s.ticked

theorem tracks_new (w : World) (others : Nat) : (new w others).Tracks where
  value := rfl
  stored := ⟨w, rfl, rfl⟩
  someone := List.cons_ne_nil _ _
  volume := by
    intro replica member
    rw [List.eq_of_mem_replicate member]
    exact OHVolume.lookup_volume w
  mute := by
    intro replica member
    rw [List.eq_of_mem_replicate member]
    exact OHVolume.lookup_mute w
  settled := fun _ => ⟨rfl, rfl⟩

/-- An action only notifies the volume it leaves. -/
theorem notified_perform (action : VolumeAct) (w : World) :
    (action.perform w).1.notified = none ∨
      (action.perform w).1.notified = some (UpMpd.getvolume (action.perform w).2) := by
  cases action with
  | ohSetVolume value env =>
      cases value with
      | none => exact .inl rfl
      | some volume => exact .inr rfl
  | ohSetMute value env =>
      cases value with
      | none => exact .inl rfl
      | some mute => exact .inl rfl
  | ohVolumeInc env => exact .inr rfl
  | ohVolumeDec env => exact .inr rfl
  | rcSetVolume channel desired env =>
      left
      simp only [VolumeAct.perform, RenderingControl.setVolume, RenderingControl.onMaster]
      split
      · split
        · rfl
        · split <;> rfl
      · rfl
  | rcSetMute channel desired env =>
      left
      simp only [VolumeAct.perform, RenderingControl.setMute, RenderingControl.onMaster]
      split
      · split
        · rfl
        · split
          · rfl
          · split <;> rfl
      · rfl
  | rcSelectPreset presetnm env =>
      left
      simp only [VolumeAct.perform, RenderingControl.selectPreset]
      split <;> rfl
  | updStatus env => exact .inl rfl

section Steps

variable {s t : VolumeRun}

theorem Tracks.told (tracks : s.Tracks) (settled : s.settled = true) :
    ∀ replica ∈ s.service.subscribers,
      replica.lookup "Volume" = some (toString (UpMpd.getvolume s.w)) ∧
        replica.lookup "Mute" = some (flag (UpMpd.getvolume s.w = 0)) := by
  obtain ⟨same, last⟩ := tracks.settled settled
  intro replica member
  have volume := tracks.volume replica member
  rw [last, ← same] at volume
  have mute := tracks.mute replica member
  rw [← same] at mute
  exact ⟨volume, mute⟩

theorem tracks_act (tracks : s.Tracks) (action : VolumeAct) (out : Unit)
    (taken : s.step (.act action) = some (t, out)) : t.Tracks := by
  have sent := notified_perform action s.w
  simp only [step] at taken
  cases notified : (action.perform s.w).1.notified with
  | none =>
      rw [notified] at taken
      cases taken
      refine ⟨rfl, tracks.stored, tracks.someone, tracks.volume, tracks.mute, fun settled => ?_⟩
      obtain ⟨before, kept⟩ := Bool.and_eq_true_iff.mp settled
      obtain ⟨same, last⟩ := tracks.settled before
      exact ⟨(of_decide_eq_true kept).trans same, last⟩
  | some volume =>
      rw [notified] at taken sent
      have current : volume = UpMpd.getvolume (action.perform s.w).2 := by
        simpa using sent
      cases taken
      refine ⟨rfl, tracks.stored, ?_, ?_, ?_, fun settled => ?_⟩
      · exact fun none => tracks.someone (List.map_eq_nil_iff.mp none)
      · intro replica member
        obtain ⟨before, subscribed, rfl⟩ := List.mem_map.mp member
        rfl
      · intro replica member
        obtain ⟨before, subscribed, rfl⟩ := List.mem_map.mp member
        exact tracks.mute before subscribed
      · obtain ⟨before, kept⟩ := Bool.and_eq_true_iff.mp settled
        have same := (of_decide_eq_true kept).trans (tracks.settled before).1
        exact ⟨same, current.trans same⟩

/-- What a subscriber has of a variable after an event. -/
theorem lookup_tick (tracks : s.Tracks) {replica : StateMap}
    (member : replica ∈ (s.service.onEvent .volume).subscribers) :
    ∃ before ∈ s.service.subscribers, ∀ name, replica.lookup name =
      if s.service.m_state.lookup name = (OHVolume.makestate s.w).lookup name then
        before.lookup name
      else ((OHVolume.makestate s.w).lookup name).or (before.lookup name) := by
  rw [OHService.onEvent_eq, tracks.value, OHVolume.makestate_value] at member
  obtain ⟨before, subscribed, rfl⟩ := List.mem_map.mp member
  refine ⟨before, subscribed, fun name => ?_⟩
  rw [VarMap.lookup_overlay, VarMap.lookup_diff]
  · split
    · exact Option.none_or
    · rfl
  · rw [← OHVolume.makestate_value]
    exact OHService.nodup_makestate .volume _

theorem toString_inj {volume other : Int} (same : toString volume = toString other) :
    volume = other := Int.repr_injective same

/-- The mute state only changes in events. -/
theorem mute_tick (tracks : s.Tracks) :
    ∀ replica ∈ (s.service.onEvent .volume).subscribers,
      replica.lookup "Mute" = some (flag (UpMpd.getvolume s.w = 0)) := by
  intro replica member
  obtain ⟨before, subscribed, told⟩ := lookup_tick tracks member
  obtain ⟨w, stored, ticked⟩ := tracks.stored
  rw [told, stored, OHVolume.lookup_mute, OHVolume.lookup_mute, ticked,
    tracks.mute before subscribed]
  split
  · rename_i same
    exact same
  · rfl

/-- The volume after an event is the current one, unless it has come back to what it was
at the event before. -/
theorem volume_tick (tracks : s.Tracks) :
    ∀ replica ∈ (s.service.onEvent .volume).subscribers,
      replica.lookup "Volume" =
        some (toString (if UpMpd.getvolume s.w = s.ticked then s.notified.getD s.ticked
          else UpMpd.getvolume s.w)) := by
  intro replica member
  obtain ⟨before, subscribed, told⟩ := lookup_tick tracks member
  obtain ⟨w, stored, ticked⟩ := tracks.stored
  rw [told, stored, OHVolume.lookup_volume, OHVolume.lookup_volume, ticked,
    tracks.volume before subscribed]
  by_cases same : UpMpd.getvolume s.w = s.ticked
  · rw [if_pos same, same, if_pos rfl]
  · have other : some (toString s.ticked) ≠ some (toString (UpMpd.getvolume s.w)) :=
      fun equal => same (toString_inj (Option.some.inj equal)).symm
    rw [if_neg same, if_neg other]
    rfl

theorem tick_iff (tracks : s.Tracks) {out : Unit} (taken : s.step .tick = some (t, out)) :
    (ToldCurrent s .tick t out ↔ NotUndone s .tick t out) ∧
      (ToldCurrent s .tick t out → t.Tracks) := by
  cases taken
  have volume := volume_tick tracks
  have mute := mute_tick tracks
  have someone : (s.service.onEvent .volume).subscribers ≠ [] := by
    rw [OHService.onEvent_eq]
    exact fun none => tracks.someone (List.map_eq_nil_iff.mp none)
  refine ⟨⟨fun told same heard notified => ?_, fun undone _ replica member => ?_⟩, fun told => ?_⟩
  · obtain ⟨replica, member⟩ := List.exists_mem_of_ne_nil _ someone
    have current := (told rfl replica member).1
    rw [volume replica member, if_pos same, show s.notified = some heard from notified] at current
    exact (toString_inj (Option.some.inj current)).trans same
  · refine ⟨?_, mute replica member⟩
    rw [volume replica member]
    by_cases same : UpMpd.getvolume s.w = s.ticked
    · have last : s.notified.getD s.ticked = s.ticked := by
        cases notified : s.notified with
        | none => rfl
        | some heard => exact undone same heard notified
      rw [if_pos same, last, same]
    · rw [if_neg same]
  · refine ⟨?_, ⟨s.w, ?_, rfl⟩, someone, fun replica member => (told rfl replica member).1, mute,
      fun _ => ⟨rfl, rfl⟩⟩
    · rw [OHService.onEvent_eq]
      exact tracks.value
    · rw [OHService.onEvent_eq, tracks.value, OHVolume.makestate_value]

theorem step_iff (tracks : s.Tracks) {event : VolumeEvent} {out : Unit}
    (taken : s.step event = some (t, out)) :
    (ToldCurrent s event t out ↔ NotUndone s event t out) ∧
      (ToldCurrent s event t out → t.Tracks) := by
  cases event with
  | act action =>
      have kept := tracks_act tracks action out taken
      exact ⟨iff_of_true kept.told trivial, fun _ => kept⟩
  | mpd mpd =>
      cases taken
      have kept : Tracks { s with w := { s.w with mpd := mpd } } :=
        ⟨tracks.value, tracks.stored, tracks.someone, tracks.volume, tracks.mute, tracks.settled⟩
      exact ⟨iff_of_true kept.told trivial, fun _ => kept⟩
  | tick => exact tick_iff tracks taken

end Steps

/-- In every run the subscribers know the volume once an event has followed its last change
exactly when no event finds a volume which another one has been sent over. -/
theorem toldCurrent_iff (w : World) (others : Nat) (events : List VolumeEvent) :
    Machine.Along ToldCurrent step (new w others) events ↔
      Machine.Along NotUndone step (new w others) events := by
  apply Machine.along_iff_of_invariant _ _ _ (tracks_new w others)
  intro s event t out tracks taken
  exact step_iff tracks taken

/-- One control point sets the volume and another one sets it back before the event. -/
theorem undone_not_toldCurrent :
    ¬ Machine.Along ToldCurrent step (new {} 0)
      [.act (.ohSetVolume (some 60) {}), .act (.rcSetVolume (some "Master") (some "50") {}),
        .tick] := by
  decide

end VolumeRun

end Upmpdcli
