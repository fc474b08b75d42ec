import Upmpdcli.Lib.Machine
import Upmpdcli.OHPlaylistSwitch

set_option autoImplicit false

/- The saved queue of the playlist source over a history of switches, when commands fail. -/
namespace Upmpdcli

namespace OHPlaylist

/-- The uris which `restoreState` is going to insert. -/
def savedUris (pl : OHPlaylist) : List String := pl.m_mpdsavedstate.queue.map (·.rsrc.uri)

/-- What `saveState` returns when the source is left. `setActive` does not look at it. -/
def leaveSaved (help : PlaylistHelp) (pl : OHPlaylist) (w : World) (env : LeaveEnv) : Bool :=
  let (_, pl, w) := makestate help pl w env.queue
  (MpdCli.saveState w pl.m_mpdsavedstate (-1) env.save).1

/-- What `restoreState` returns when it comes back. -/
def comeBackRestored (pl : OHPlaylist) (w : World) (env : ComeBackEnv) : Bool :=
  let (_, w) := MpdCli.clearQueue w env.clear
  (MpdCli.restoreState w pl.m_mpdsavedstate env.restore).1

end OHPlaylist

/-- The service, MPD and its client. `kept` is the queue of the last successful `saveState` made
on a completely restored queue, with the changes made to it since. -/
structure PlaylistSource where
  pl : OHPlaylist := {}
  w : World
  kept : Option (List String) := none

inductive PlaylistSwitch
  | leave (env : LeaveEnv)
  | comeBack (env : ComeBackEnv)
  /-- A change which anybody makes to the queue of the active source. -/
  | change (f : List String → List String) (pl : OHPlaylist) (w : World)
  /-- Anything done with MPD for another source. -/
  | use (pl : OHPlaylist) (w : World)

namespace PlaylistSource

/-- All the entries of the playlist are in the queue of MPD. -/
def Restored (s : PlaylistSource) : Prop := ∀ kept ∈ s.kept, s.w.mpd.uris = kept

instance (s : PlaylistSource) : Decidable s.Restored :=
  inferInstanceAs (Decidable (∀ kept ∈ s.kept, _))

/-- The saved state is the last one which counts, and nothing was changed since. -/
def Unchanged (s : PlaylistSource) : Prop := ∀ kept ∈ s.kept, s.pl.savedUris = kept

instance (s : PlaylistSource) : Decidable s.Unchanged :=
  inferInstanceAs (Decidable (∀ kept ∈ s.kept, _))

section

variable (help : PlaylistHelp)

/-- Only `setActive` writes the flag and the saved state. -/
def step (s : PlaylistSource) : PlaylistSwitch → Option (PlaylistSource × Bool)
  | .leave env =>
      let saved := s.pl.leaveSaved help s.w env
      let (pl, w) := s.pl.leave help s.w env
      some ({ pl := pl, w := w
              kept := if saved ∧ s.Restored then some pl.savedUris else s.kept }, saved)
  | .comeBack env =>
      if s.pl.m_active then none
      else
        let restored := s.pl.comeBackRestored s.w env
        let (pl, w) := s.pl.comeBack s.w env
        some ({ s with pl := pl, w := w }, restored)
  | .change f pl w =>
      if s.pl.m_active ∧ pl.m_active ∧ pl.m_mpdsavedstate = s.pl.m_mpdsavedstate ∧
          w.mpd.uris = f s.w.mpd.uris then
        some ({ pl := pl, w := w, kept := s.kept.map f }, true)
      else none
  | .use pl w =>
      if ¬ s.pl.m_active ∧ ¬ pl.m_active ∧ pl.m_mpdsavedstate = s.pl.m_mpdsavedstate then
        some ({ s with pl := pl, w := w }, true)
      else none

/-- What is wanted of a switch: a `saveState` which returns `false` does not touch the state, and
after a fully successful activation the queue is the one that counts. -/
def Survives (s : PlaylistSource) (switch : PlaylistSwitch) (t : PlaylistSource) (out : Bool) :
    Prop :=
  match switch with
  | .leave _ => out = false → t.pl.m_mpdsavedstate = s.pl.m_mpdsavedstate
  | .comeBack env =>
      env.clear.Smooth → env.restore.Smooth → out = true → ∀ kept ∈ s.kept, t.w.mpd.uris = kept
  | .change .. | .use .. => True

/-- The condition on a deactivation: MPD tells nothing at all, and nothing has to be saved, or it
tells the status and the queue, which has been completely restored. -/
def Careful (s : PlaylistSource) (switch : PlaylistSwitch) (_ : PlaylistSource) (_ : Bool) : Prop :=
  match switch with
  | .leave env =>
      if env.save.status.answered then env.save.list.answered = true ∧ s.Restored
      else s.Unchanged
  | .comeBack _ | .change .. | .use .. => True

instance (s t : PlaylistSource) (out : Bool) : ∀ switch, Decidable (Careful s switch t out)
  | .leave env => inferInstanceAs (Decidable (if env.save.status.answered then _ else _))
  | .comeBack _ | .change .. | .use .. => .isTrue trivial

/-- While the source is not active, the saved queue is the one that counts. -/
def Safe (s : PlaylistSource) : Prop := s.pl.m_active = false → s.Unchanged

end

end PlaylistSource

namespace MpdCli

/-- The three results of `saveState`. -/
theorem saveState_cases (w : World) (st : MpdState) (seekms : Int) (env : SaveEnv) :
    if env.status.answered then
      (saveState w st seekms env).1 = env.list.answered
    else (saveState w st seekms env).1 = false ∧ (saveState w st seekms env).2.1 = st := by
  unfold saveState updStatus getQueueData getQueueSongs
  split
  · rename_i answered
    cases listed : env.list.answered <;> rfl
  · rename_i unanswered
    exact ⟨rfl, rfl⟩

end MpdCli

namespace OHPlaylist

variable (help : PlaylistHelp)

theorem m_mpdsavedstate_makeIdArray (pl : OHPlaylist) (w : World) (env : ListEnv) :
    (makeIdArray help pl w env).2.1.m_mpdsavedstate = pl.m_mpdsavedstate := by
  unfold makeIdArray checkTitle refreshCache refreshMetacache
  dsimp only
  split
  · split
    · split <;> rfl
    · rfl
  · split
    · rfl
    · dsimp only
      split <;> split <;> rfl

theorem m_mpdsavedstate_makestate (pl : OHPlaylist) (w : World) (env : ListEnv) :
    (makestate help pl w env).2.1.m_mpdsavedstate = pl.m_mpdsavedstate := by
  unfold makestate
  split
  · dsimp only
    rw [← m_mpdsavedstate_makeIdArray help pl w env]
    split <;> rfl
  · rfl

/-- A deactivation when MPD tells no status. -/
theorem leave_unanswered (pl : OHPlaylist) (w : World) {env : LeaveEnv}
    (unanswered : ¬ env.save.status.answered = true) :
    leaveSaved help pl w env = false ∧
      (leave help pl w env).1.m_mpdsavedstate = pl.m_mpdsavedstate := by
  have saved := MpdCli.saveState_cases (makestate help pl w env.queue).2.2
    (makestate help pl w env.queue).2.1.m_mpdsavedstate (-1) env.save
  rw [if_neg unanswered, m_mpdsavedstate_makestate] at saved
  unfold leaveSaved leave
  dsimp only
  rw [m_mpdsavedstate_makestate]
  exact saved

theorem leaveSaved_answered (pl : OHPlaylist) (w : World) {env : LeaveEnv}
    (answered : env.save.status.answered = true) :
    leaveSaved help pl w env = env.save.list.answered := by
  have saved := MpdCli.saveState_cases (makestate help pl w env.queue).2.2
    (makestate help pl w env.queue).2.1.m_mpdsavedstate (-1) env.save
  rwa [if_pos answered] at saved

/-- What a fully successful activation makes of the queue. -/
theorem uris_comeBack {env : ComeBackEnv} (restore : env.restore.Smooth) (pl : OHPlaylist)
    (w : World) (restored : comeBackRestored pl w env = true) :
    (comeBack pl w env).2.mpd.uris = pl.savedUris :=
  (MpdCli.restoreState_smooth restore _ _ restored).1

end OHPlaylist

namespace PlaylistSource

variable {help : PlaylistHelp}

theorem step_leave (s : PlaylistSource) (env : LeaveEnv) :
    step help s (.leave env) =
      some ({ pl := (s.pl.leave help s.w env).1, w := (s.pl.leave help s.w env).2
              kept := if s.pl.leaveSaved help s.w env ∧ s.Restored then
                some (s.pl.leave help s.w env).1.savedUris else s.kept },
        s.pl.leaveSaved help s.w env) := rfl

theorem leave_step {s t : PlaylistSource} {env : LeaveEnv} {out : Bool}
    (careful : Careful s (.leave env) t out) (taken : step help s (.leave env) = some (t, out)) :
    t.Unchanged ∧ Survives s (.leave env) t out := by
  rw [step_leave, Option.some.injEq, Prod.mk.injEq] at taken
  obtain ⟨rfl, rfl⟩ := taken
  unfold Unchanged Survives
  dsimp only [Careful] at careful ⊢
  split at careful
  · rename_i answered
    have saved := OHPlaylist.leaveSaved_answered help s.pl s.w answered
    rw [saved, careful.1, if_pos ⟨rfl, careful.2⟩]
    refine ⟨fun kept same => ?_, nofun⟩
    exact Option.some.inj same
  · rename_i unanswered
    obtain ⟨failed, same⟩ := OHPlaylist.leave_unanswered help s.pl s.w unanswered
    rw [failed, if_neg (fun saved => Bool.false_ne_true saved.1)]
    refine ⟨fun kept member => ?_, fun _ => same⟩
    unfold OHPlaylist.savedUris
    rw [same]
    exact careful kept member

/-- One switch keeps the playlist. -/
theorem safe_step {s t : PlaylistSource} {switch : PlaylistSwitch} {out : Bool} (safe : s.Safe)
    (careful : Careful s switch t out) (taken : step help s switch = some (t, out)) :
    t.Safe ∧ Survives s switch t out := by
  cases switch with
  | leave env =>
      obtain ⟨unchanged, survives⟩ := leave_step careful taken
      exact ⟨fun _ => unchanged, survives⟩
  | comeBack env =>
      rw [step] at taken
      split at taken
      · cases taken
      · rename_i inactive
        cases taken
        refine ⟨nofun, fun _ restore restored kept member => ?_⟩
        exact (OHPlaylist.uris_comeBack restore s.pl s.w restored).trans
          (safe (Bool.eq_false_iff.mpr inactive) kept member)
  | change f pl w =>
      rw [step] at taken
      split at taken
      · rename_i allowed
        cases taken
        refine ⟨fun inactive => ?_, trivial⟩
        exact absurd (allowed.2.1.symm.trans inactive) (by decide)
      · cases taken
  | use pl w =>
      rw [step] at taken
      split at taken
      · rename_i allowed
        cases taken
        refine ⟨fun _ kept member => ?_, trivial⟩
        unfold OHPlaylist.savedUris
        rw [allowed.2.2]
        exact safe (Bool.eq_false_iff.mpr allowed.1) kept member
      · cases taken

/-- In every run of deactivations and activations which are careful, the playlist survives. -/
theorem survives_of_careful (help : PlaylistHelp) (w : World) (switches : List PlaylistSwitch)
    (careful : Machine.Along Careful (step help) { w := w } switches) :
    Machine.Along Survives (step help) { w := w } switches := by
  have start : Safe { w := w } := by
    rintro - kept ⟨⟩
  refine Machine.along_of_invariant ?_ _ switches start careful
  intro s switch t out safe careful taken
  exact safe_step safe careful taken

/-- No failure at all: the status and the queue are told when the active source is left, and all
of the queue is put back when it returns. -/
def Attended (s : PlaylistSource) (switch : PlaylistSwitch) (_ : PlaylistSource) (out : Bool) :
    Prop :=
  match switch with
  | .leave env =>
      s.pl.m_active = true ∧ env.save.status.answered = true ∧ env.save.list.answered = true
  | .comeBack env => env.restore.Smooth ∧ out = true
  | .change .. | .use .. => True

theorem restored_comeBack {s t : PlaylistSource} {env : ComeBackEnv} (safe : s.Safe)
    (restore : env.restore.Smooth) (taken : step help s (.comeBack env) = some (t, true)) :
    t.Restored := by
  intro kept member
  rw [step] at taken
  split at taken
  · cases taken
  · rename_i inactive
    obtain ⟨rfl, restored⟩ := Prod.mk.inj (Option.some.inj taken)
    exact (OHPlaylist.uris_comeBack restore s.pl s.w restored).trans
      (safe (Bool.eq_false_iff.mpr inactive) kept member)

/-- A change of a queue which is completely restored leaves it so. -/
theorem restored_change {s t : PlaylistSource} {f : List String → List String} {pl : OHPlaylist}
    {w : World} {out : Bool} (restored : s.Restored)
    (taken : step help s (.change f pl w) = some (t, out)) : t.Restored := by
  intro kept member
  rw [step] at taken
  split at taken
  · rename_i allowed
    cases taken
    obtain ⟨before, there, rfl⟩ := Option.map_eq_some_iff.mp member
    rw [allowed.2.2.2, restored before there]
  · cases taken

/-- Without a failure every switch is careful. -/
theorem careful_of_attended (help : PlaylistHelp) (w : World) (switches : List PlaylistSwitch)
    (attended : Machine.Along Attended (step help) { w := w } switches) :
    Machine.Along Careful (step help) { w := w } switches := by
  let inv (s : PlaylistSource) : Prop := s.Safe ∧ (s.pl.m_active = true → s.Restored)
  have start : inv { w := w } := by
    refine ⟨?_, ?_⟩ <;> rintro - kept ⟨⟩
  refine Machine.along_of_invariant ?_ _ switches start attended
  rintro s switch t out ⟨safe, restored⟩ attended taken
  cases switch with
  | leave env =>
      have careful : Careful s (.leave env) t out := by
        dsimp only [Careful]
        rw [if_pos attended.2.1]
        exact ⟨attended.2.2, restored attended.1⟩
      refine ⟨⟨(safe_step safe careful taken).1, fun active => ?_⟩, careful⟩
      rw [step_leave, Option.some.injEq, Prod.mk.injEq] at taken
      rw [← taken.1] at active
      cases active
  | comeBack env =>
      obtain ⟨restore, rfl⟩ := attended
      have careful : Careful s (.comeBack env) t true := trivial
      exact ⟨⟨(safe_step safe careful taken).1, fun _ => restored_comeBack safe restore taken⟩,
        careful⟩
  | change f pl w =>
      have careful : Careful s (.change f pl w) t out := trivial
      refine ⟨⟨(safe_step safe careful taken).1, fun _ => restored_change (restored ?_) taken⟩,
        careful⟩
      rw [step] at taken
      split at taken
      · rename_i allowed
        exact allowed.1
      · cases taken
  | use pl w =>
      have careful : Careful s (.use pl w) t out := trivial
      refine ⟨⟨(safe_step safe careful taken).1, fun active => ?_⟩, careful⟩
      rw [step] at taken
      split at taken
      · rename_i allowed
        cases taken
        exact absurd active allowed.2.1
      · cases taken

/-- An activation whose second insertion fails. -/
def failing : ComeBackEnv :=
  { restore := { inserts := [{ add := { first := { newid := 5 } } }, { add := { ok := false } }] } }

def twoSongs : World :=
  { mpd := { queue := ⟨[{ id := 1, uri := "http://h/first" }, { id := 2, uri := "http://h/second" }],
    by decide, by decide⟩ } }

/-- The queue is not completely restored, and MPD does not answer when the source is left. -/
theorem survives_silent :
    Machine.Along Survives (step .plain) { w := twoSongs }
      [.leave {}, .comeBack failing, .leave { save := { status := { answered := false } } },
        .comeBack (OHPlaylist.succeeding [8, 9])] :=
  survives_of_careful .plain twoSongs _ (by decide)

/-- What is left of the queue is saved over the rest. -/
theorem not_survives_partial : ¬ ∀ (help : PlaylistHelp) (w : World)
    (switches : List PlaylistSwitch),
    Machine.Along Survives (step help) { w := w } switches := by
  intro survives
  obtain ⟨-, -, -, last, -⟩ := survives .plain twoSongs
    [.leave {}, .comeBack failing, .leave {}, .comeBack (OHPlaylist.succeeding [8])]
  have lost := last ⟨rfl, rfl, rfl⟩ (OHPlaylist.smooth_succeeding [8]) (by decide)
    ["http://h/first", "http://h/second"] (by decide)
  exact absurd lost (by decide)

end PlaylistSource

end Upmpdcli
