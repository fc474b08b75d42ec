import Upmpdcli.AVTransportTrack

set_option autoImplicit false

/- When the next track becomes the current one. The service infers it from the uri of
MPD's current song, which does not tell two entries of the queue with one uri apart. -/
namespace Upmpdcli

/-- The service at work, and the id of the queue entry of the last SetNextAVTransportURI. -/
structure NextRun where
  run : AvtRun := {}
  queued : Option Int := none
deriving DecidableEq

/-- The next track has become the current one, and there is no other next track. -/
def AVTransport.Promoted (avt avt' : AVTransport) : Prop :=
  avt.m_nextUri ≠ "" ∧ avt'.m_uri = avt.m_nextUri ∧ avt'.m_curMetadata = avt.m_nextMetadata ∧
    avt'.m_nextUri = "" ∧ avt'.m_nextMetadata = ""

/-- The data of the current song makes `followMpd` take it for the next track. -/
def AVTransport.FindsNext (avt : AVTransport) (mpds : MpdStatus) (radioPlaying : Bool) : Prop :=
  ¬ (radioPlaying ∨ Smallut.contains avt.m_curMetadata UpSong.origMpd) ∧
    avt.m_nextUri ≠ "" ∧ mpds.currentsong.rsrc.uri = avt.m_nextUri

instance (avt avt' : AVTransport) : Decidable (avt.Promoted avt') :=
  inferInstanceAs (Decidable (_ ∧ _))

instance (avt : AVTransport) (mpds : MpdStatus) (radioPlaying : Bool) :
    Decidable (avt.FindsNext mpds radioPlaying) := inferInstanceAs (Decidable (_ ∧ _))

namespace NextRun

variable (help : PlaylistHelp) (opts : AvtOptions)

/-- The entry a successful SetNextAVTransportURI has put into the queue. -/
def queuedBy (s : NextRun) : AvtAct → Option Int
  | .setUri true uri metadata env =>
      match s.run.avt.setAVTransportURI help opts s.run.w true uri metadata env with
      | (.success, _, w) => some w.cli.m_lastinsertid
      | _ => s.queued
  | _ => s.queued

def step (s : NextRun) (action : AvtAct) : Option (NextRun × StateMap) :=
  (s.run.step help opts action).map fun (run, status) =>
    ({ run := run, queued := s.queuedBy help opts action }, status)

/-- The entry MPD is on is the one which SetNextAVTransportURI has put into its queue. -/
def OnQueued (s : NextRun) : Prop := s.queued = some s.run.w.cli.m_stat.songid

/-- What is wanted: the next track becomes the current one when MPD is on its entry. The
actions only make current what they are given. -/
def PromotesQueued (s : NextRun) (action : AvtAct) (t : NextRun) (_ : StateMap) : Prop :=
  match action with
  | .event _ => s.run.avt.Promoted t.run.avt → s.OnQueued
  | .setUri true _ _ _ =>
      t.run.avt.m_uri = s.run.avt.m_uri ∧ t.run.avt.m_curMetadata = s.run.avt.m_curMetadata
  | .setUri false uri metadata _ =>
      t.run.avt = s.run.avt ∨
        (uri.bind help.morphSpecialUrl).map Prod.fst = some t.run.avt.m_uri ∧
          t.run.avt.m_curMetadata = metadata.getD ""
  | _ => t.run.avt = s.run.avt

/-- The condition on each step: when a computation of the state finds the uri of the next
track in MPD's current song, this is not another entry of the queue with the same uri. -/
def NotElsewhere (s : NextRun) (action : AvtAct) (_ : NextRun) (_ : StateMap) : Prop :=
  match action with
  | .event _ => s.run.avt.FindsNext s.run.w.cli.m_stat s.run.radioPlaying → s.OnQueued
  | _ => True

instance (s : NextRun) : Decidable s.OnQueued := inferInstanceAs (Decidable (_ = _))

instance (s t : NextRun) (status : StateMap) :
    ∀ action, Decidable (PromotesQueued help s action t status)
  | .event _ => inferInstanceAs (Decidable (_ → _))
  | .setUri true _ _ _ => inferInstanceAs (Decidable (_ ∧ _))
  | .setUri false _ _ _ => inferInstanceAs (Decidable (_ ∨ _))
  | .updStatus _ | .mpd _ | .setRadio _ | .playlistActive _ => inferInstanceAs (Decidable (_ = _))
  | .playlistInsert .. | .playlistState _ | .playlistRead .. => inferInstanceAs (Decidable (_ = _))

end NextRun

namespace AVTransport

/-- The next track becomes the current one exactly when its uri is found. -/
theorem promoted_followMpd_iff (help : PlaylistHelp) (avt : AVTransport) (mpds : MpdStatus)
    (radioPlaying : Bool) (ohcache : Option (List (String × String))) :
    avt.Promoted (avt.followMpd help mpds radioPlaying ohcache) ↔
      avt.FindsNext mpds radioPlaying := by
  unfold followMpd
  dsimp only
  split
  · -- the next track stays
    rename_i foreign
    apply iff_of_false
    · exact fun promoted => promoted.1 promoted.2.2.2.1
    · exact fun finds => finds.1 foreign
  · rename_i ours
    split
    · rename_i found
      have there : avt.m_nextUri ≠ "" := found.2 ▸ found.1
      exact iff_of_true ⟨there, rfl, rfl, rfl, rfl⟩ ⟨ours, there, found.2⟩
    · rename_i missed
      have other : ¬ avt.FindsNext mpds radioPlaying := fun finds =>
        missed ⟨finds.2.2 ▸ finds.2.1, finds.2.2⟩
      split
      · refine iff_of_false (fun promoted => ?_) other
        have current : mpds.currentsong.rsrc.uri = avt.m_nextUri := promoted.2.1
        exact other ⟨ours, promoted.1, current⟩
      · exact iff_of_false (fun promoted => promoted.1 promoted.2.2.2.1) other

end AVTransport

namespace NextRun

theorem avt_setUri (help : PlaylistHelp) (opts : AvtOptions) (s : AvtRun) (setnext : Bool)
    (uri metadata : Option String) (env : SetUriEnv) :
    (s.setUri help opts setnext uri metadata env).avt =
      (s.avt.setAVTransportURI help opts s.w setnext uri metadata env).2.1 := rfl

theorem avt_playlistInsert (help : PlaylistHelp) (s : AvtRun) (pl : OHPlaylist)
    (uri metadata : String) (nocheck : Bool) :
    (s.playlistInsert help pl uri metadata nocheck).avt = s.avt := by
  unfold AvtRun.playlistInsert
  split
  · rfl
  · rfl

theorem promotesQueued_setUri (help : PlaylistHelp) (opts : AvtOptions) {s t : NextRun}
    {setnext : Bool} {uri metadata : Option String} {env : SetUriEnv} {status : StateMap}
    (taken : s.step help opts (.setUri setnext uri metadata env) = some (t, status)) :
    PromotesQueued help s (.setUri setnext uri metadata env) t status := by
  obtain ⟨_, done, same⟩ := Option.map_eq_some_iff.mp taken
  cases done
  cases same
  have cases := s.run.avt.setAVTransportURI_cases help opts s.run.w setnext uri metadata env
  cases setnext with
  | true =>
      show _ ∧ _
      rw [avt_setUri]
      rcases cases with ⟨_, kept⟩ | ⟨_, _, _, _, _, set⟩
      · rw [kept]
        exact ⟨rfl, rfl⟩
      · rw [set]
        exact ⟨rfl, rfl⟩
  | false =>
      show _ ∨ _
      rw [avt_setUri]
      rcases cases with ⟨_, kept⟩ | ⟨_, _, _, _, known, set⟩
      · exact .inl kept
      · right
        rw [set, known]
        exact ⟨rfl, rfl⟩

theorem promotesQueued_step_iff (help : PlaylistHelp) (opts : AvtOptions) {s t : NextRun}
    {action : AvtAct} {status : StateMap} (taken : s.step help opts action = some (t, status)) :
    PromotesQueued help s action t status ↔ NotElsewhere s action t status := by
  cases action with
  | event ok =>
      obtain ⟨_, done, same⟩ := Option.map_eq_some_iff.mp taken
      cases done
      cases same
      have found := s.run.avt.promoted_followMpd_iff help s.run.w.cli.m_stat s.run.radioPlaying
        (s.run.ohp.map (·.m_metacache))
      exact imp_congr found Iff.rfl
  | setUri setnext uri metadata env => exact iff_of_true (promotesQueued_setUri help opts taken) trivial
  | updStatus env | mpd mpd | setRadio on =>
      obtain ⟨_, done, same⟩ := Option.map_eq_some_iff.mp taken
      cases done
      cases same
      exact iff_of_true rfl trivial
  | playlistInsert uri metadata nocheck =>
      obtain ⟨_, done, same⟩ := Option.map_eq_some_iff.mp taken
      obtain ⟨pl, _, made⟩ := Option.map_eq_some_iff.mp done
      cases made
      cases same
      exact iff_of_true (avt_playlistInsert help s.run pl uri metadata nocheck) trivial
  | playlistActive on | playlistState env | playlistRead id answered =>
      obtain ⟨_, done, same⟩ := Option.map_eq_some_iff.mp taken
      obtain ⟨_, _, made⟩ := Option.map_eq_some_iff.mp done
      cases made
      cases same
      exact iff_of_true rfl trivial

/-- Every run promotes the next track as wanted exactly when no computation of the state
finds its uri in another entry of the queue. -/
theorem promotesQueued_iff (help : PlaylistHelp) (opts : AvtOptions) (s : NextRun)
    (actions : List AvtAct) :
    Machine.Along (PromotesQueued help) (step help opts) s actions ↔
      Machine.Along NotElsewhere (step help opts) s actions := by
  have agree (s : NextRun) (action : AvtAct) (t : NextRun) (status : StateMap) (_ : True)
      (taken : s.step help opts action = some (t, status)) :
      (PromotesQueued help s action t status ↔ NotElsewhere s action t status) ∧
        (PromotesQueued help s action t status → True) :=
    ⟨promotesQueued_step_iff help opts taken, fun _ => trivial⟩
  exact Machine.along_iff_of_invariant agree s actions trivial

/-- A track is set, and then once more as the next one. -/
theorem repeated_not_promotesQueued :
    let first : InsertEnv := { add := { first := { newid := 1 } } }
    let second : InsertEnv := { add := { first := { newid := 2 } } }
    ¬ Machine.Along (PromotesQueued .plain) (step .plain { ownQueue := true, autoplay := true }) {}
      [.setUri false (some "http://h/a") (some "one") { insert := first }, .updStatus {},
        .setUri true (some "http://h/a") (some "two") { insert := second }, .updStatus {},
        .event true] := by
  decide

end NextRun

end Upmpdcli
