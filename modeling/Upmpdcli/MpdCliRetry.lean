import Upmpdcli.Lib.Machine
import Upmpdcli.MpdCliInsertAlone
import Upmpdcli.MpdCliState

set_option autoImplicit false

/- Commands which are sent again after a lost connection, and how often MPD executes them. -/
namespace Upmpdcli

variable {α : Type}

/-- How often MPD executes one attempt. -/
def Attempt.executions (e : Attempt) (cmd : Nat → Mpd → Option (α × Mpd)) (mpd : Mpd) : Nat :=
  if e.outcome ≠ .notSent ∧ (cmd e.newid (mpd.edited e.edits)).isSome then 1 else 0

namespace CmdEnv

/-- How often MPD executes the command of a `RETRY_CMD`. -/
def executions (env : CmdEnv) (cmd : Nat → Mpd → Option (α × Mpd)) (mpd : Mpd) : Nat :=
  if env.ok then
    let (result, m) := env.first.run cmd mpd
    env.first.executions cmd mpd +
      if result.isNone ∧ env.first.outcome ≠ .replied ∧ env.reopened = true then
        env.second.executions cmd m
      else 0
  else 0

/-- The first attempt is executed and its reply is lost with the connection, and the second
one is executed too and answered. -/
structure Twice (env : CmdEnv) (cmd : Nat → Mpd → Option (α × Mpd)) (mpd : Mpd) : Prop where
  ok : env.ok = true
  lost : env.first.outcome = .lost
  executed : (cmd env.first.newid (mpd.edited env.first.edits)).isSome = true
  reopened : env.reopened = true
  replied : env.second.outcome = .replied
  again : (cmd env.second.newid
    ((env.first.run cmd mpd).2.edited env.second.edits)).isSome = true

instance (env : CmdEnv) (cmd : Nat → Mpd → Option (α × Mpd)) (mpd : Mpd) :
    Decidable (env.Twice cmd mpd) :=
  decidable_of_iff
    ((env.ok = true ∧ env.first.outcome = .lost ∧
        (cmd env.first.newid (mpd.edited env.first.edits)).isSome = true) ∧
      env.reopened = true ∧ env.second.outcome = .replied ∧
        (cmd env.second.newid
          ((env.first.run cmd mpd).2.edited env.second.edits)).isSome = true)
    ⟨fun ⟨⟨a, b, c⟩, d, e, f⟩ => ⟨a, b, c, d, e, f⟩, fun ⟨a, b, c, d, e, f⟩ => ⟨⟨a, b, c⟩, d, e, f⟩⟩

end CmdEnv

section Retry

variable {cmd : Nat → Mpd → Option (α × Mpd)} {env : CmdEnv} {mpd mpd' : Mpd} {result : α}

theorem Attempt.run_eq_some_iff {e : Attempt} :
    e.run cmd mpd = (some result, mpd') ↔
      e.outcome = .replied ∧ cmd e.newid (mpd.edited e.edits) = some (result, mpd') := by
  unfold Attempt.run
  dsimp only
  cases sent : e.outcome with
  | replied =>
      cases executed : cmd e.newid (mpd.edited e.edits) with
      | none => simp
      | some pair => simp [Prod.ext_iff]
  | lost => cases cmd e.newid (mpd.edited e.edits) <;> simp
  | notSent => cases cmd e.newid (mpd.edited e.edits) <;> simp

/-- Every attempt which is not answered. -/
theorem Attempt.run_of_not_replied {e : Attempt} (unanswered : e.outcome ≠ .replied) :
    (e.run cmd mpd).1 = none := by
  unfold Attempt.run
  dsimp only
  cases sent : e.outcome with
  | replied => exact absurd sent unanswered
  | lost => cases cmd e.newid (mpd.edited e.edits) <;> rfl
  | notSent => cases cmd e.newid (mpd.edited e.edits) <;> rfl

/-- The two ways in which a `RETRY_CMD` succeeds. -/
theorem retryCmd_eq_success_iff :
    retryCmd env cmd mpd = (.success result, mpd') ↔
      env.ok = true ∧
        (env.first.outcome = .replied ∧
            cmd env.first.newid (mpd.edited env.first.edits) = some (result, mpd') ∨
          env.first.outcome ≠ .replied ∧ env.reopened = true ∧ env.second.outcome = .replied ∧
            cmd env.second.newid ((env.first.run cmd mpd).2.edited env.second.edits) =
              some (result, mpd')) := by
  unfold retryCmd
  by_cases ok : env.ok = true
  · rw [if_pos ok]
    cases first : env.first.run cmd mpd with
    | mk found m =>
        cases found with
        | some found =>
            obtain ⟨replied, executed⟩ := Attempt.run_eq_some_iff.mp first
            simp [ok, replied, executed, Prod.ext_iff]
        | none =>
            have refused : ¬ (env.first.outcome = .replied ∧
                cmd env.first.newid (mpd.edited env.first.edits) = some (result, mpd')) := by
              intro done
              rw [Attempt.run_eq_some_iff.mpr done] at first
              cases first
            by_cases again : env.first.outcome ≠ .replied ∧ env.reopened = true
            · dsimp only
              rw [if_pos again]
              cases second : env.second.run cmd m with
              | mk found m' =>
                  have same : env.second.run cmd m = (some result, mpd') ↔ _ :=
                    Attempt.run_eq_some_iff
                  rw [second] at same
                  cases found with
                  | some found =>
                      simp only [Prod.mk.injEq, Option.some.injEq] at same
                      simp [ok, again.1, again.2, ← same]
                  | none =>
                      simp only [Prod.mk.injEq, reduceCtorEq, false_and, false_iff] at same
                      simp [ok, again.1, again.2, same]
            · dsimp only
              rw [if_neg again]
              simp only [Prod.mk.injEq, reduceCtorEq, false_and, ok, true_and, false_iff]
              rintro (done | ⟨unanswered, reopened, -⟩)
              · exact refused done
              · exact again ⟨unanswered, reopened⟩
  · rw [if_neg ok]
    simp [ok]

/-- A command which succeeds was executed once, unless it was executed twice. -/
theorem executions_of_success (done : retryCmd env cmd mpd = (.success result, mpd')) :
    env.executions cmd mpd = 1 ↔ ¬ env.Twice cmd mpd := by
  obtain ⟨ok, ways⟩ := retryCmd_eq_success_iff.mp done
  unfold CmdEnv.executions
  rw [if_pos ok]
  rcases ways with ⟨replied, executed⟩ | ⟨unanswered, reopened, replied, executed⟩
  · have once : env.first.executions cmd mpd = 1 := by
      unfold Attempt.executions
      rw [if_pos ⟨by simp [replied], by rw [executed]; rfl⟩]
    refine iff_of_true ?_ fun twice => ?_
    · dsimp only
      rw [once, if_neg fun again => again.2.1 replied]
    · rw [twice.lost] at replied
      cases replied
  · have unknown : (env.first.run cmd mpd).1 = none := Attempt.run_of_not_replied unanswered
    have second : env.second.executions cmd (env.first.run cmd mpd).2 = 1 := by
      unfold Attempt.executions
      rw [if_pos ⟨by simp [replied], by rw [executed]; rfl⟩]
    dsimp only
    rw [unknown, if_pos ⟨rfl, unanswered, reopened⟩, second]
    unfold Attempt.executions
    split
    · rename_i sent
      have lost : env.first.outcome = .lost := by
        cases outcome : env.first.outcome with
        | replied => exact absurd outcome unanswered
        | lost => rfl
        | notSent => exact absurd outcome sent.1
      refine iff_of_false (by omega) fun once => once ?_
      exact ⟨ok, lost, sent.2, reopened, replied, by rw [executed]; rfl⟩
    · rename_i unsent
      refine iff_of_true rfl fun twice => unsent ⟨by simp [twice.lost], twice.executed⟩

theorem success_of_twice (twice : env.Twice cmd mpd) :
    ∃ result mpd', retryCmd env cmd mpd = (.success result, mpd') := by
  obtain ⟨⟨result, mpd'⟩, executed⟩ := Option.isSome_iff_exists.mp twice.again
  refine ⟨result, mpd', retryCmd_eq_success_iff.mpr ⟨twice.ok, .inr ?_⟩⟩
  exact ⟨by simp [twice.lost], twice.reopened, twice.replied, executed⟩

theorem edited_append (m : Mpd) (first second : List MpdQueue) :
    m.edited (first ++ second) = (m.edited first).edited second := List.foldl_append

/-- One application of the command, to what the other clients have made of the queue. -/
theorem applied_of_success (done : retryCmd env cmd mpd = (.success result, mpd'))
    (once : ¬ env.Twice cmd mpd) :
    ∃ chosen edits, (env.Alone → edits = []) ∧
      cmd chosen (mpd.edited edits) = some (result, mpd') := by
  obtain ⟨ok, ways⟩ := retryCmd_eq_success_iff.mp done
  rcases ways with ⟨-, executed⟩ | ⟨unanswered, reopened, replied, executed⟩
  · exact ⟨_, _, fun alone => alone.1, executed⟩
  · have first : (env.first.run cmd mpd).2 = mpd.edited env.first.edits := by
      unfold Attempt.run
      dsimp only
      split
      · rename_i sent _
        exact absurd sent unanswered
      · rename_i lost ran
        refine absurd ⟨ok, lost, ?_, reopened, replied, ?_⟩ once
        · rw [ran]
          rfl
        · rw [executed]
          rfl
      · rfl
    rw [first, ← edited_append] at executed
    refine ⟨_, _, fun alone => ?_, executed⟩
    rw [alone.1, alone.2]
    rfl

end Retry

/-- The calls which are not idempotent, and anything that happens to MPD between them. -/
inductive RetryAct
  | insert (uri : String) (pos : Int) (song : UpSong) (env : InsertEnv)
  | deleteId (id : Int) (env : CmdEnv)
  | next (env : CmdEnv)
  | previous (env : CmdEnv)
  | togglePause (env : CmdEnv)
  | mpd (changed : Mpd)

namespace RetryAct

/-- `addid` as `insert_i` sends it. -/
def add (uri : String) (pos : Int) (newid : Nat) (m : Mpd) : Option (Nat × Mpd) :=
  m.addId uri (if pos = -1 then m.queue.songs.length else unsigned pos) newid

/-- The other calls are one command each. -/
def command : RetryAct → Option (CmdEnv × (Nat → Mpd → Option Mpd))
  | .deleteId id env => some (env, fun _ m => m.deleteId (unsigned id))
  | .next env => some (env, fun chosen m => m.next chosen)
  | .previous env => some (env, fun chosen m => m.previous chosen)
  | .togglePause env => some (env, fun _ m => some m.togglePause)
  | .insert .. | .mpd _ => none

def plain (cmd : Nat → Mpd → Option Mpd) (chosen : Nat) (m : Mpd) : Option (Unit × Mpd) :=
  (cmd chosen m).map fun m => ((), m)

/-- The result is negative for an error, and the id of the song for an insertion. -/
def step (w : World) : RetryAct → Option (World × Int)
  | .insert uri pos song env =>
      let (id, w) := MpdCli.insert w uri pos song env
      some (w, id)
  | .deleteId id env =>
      let (done, w) := MpdCli.deleteId w id env
      some (w, if done then 0 else -1)
  | .next env =>
      let (done, w) := MpdCli.next w env
      some (w, if done then 0 else -1)
  | .previous env =>
      let (done, w) := MpdCli.previous w env
      some (w, if done then 0 else -1)
  | .togglePause env =>
      let (done, w) := MpdCli.togglePause w env
      some (w, if done then 0 else -1)
  | .mpd changed => some ({ w with mpd := changed }, 0)

/-- One application of a command, which the other clients' edits may come before. -/
def AppliedOnce (env : CmdEnv) (cmd : Nat → Mpd → Option Mpd) (s t : World) : Prop :=
  env.executions (plain cmd) s.mpd = 1 ∧
    ∃ chosen edits, (env.Alone → edits = []) ∧ cmd chosen (s.mpd.edited edits) = some t.mpd

/-- One execution of `addid`, with the new song's id. The song has its place in the queue,
unless others edit it meanwhile. -/
def InsertedOnce (uri : String) (pos : Int) (env : InsertEnv) (s t : World) (id : Int) : Prop :=
  env.add.executions (add uri pos) s.mpd = 1 ∧
    (∃ edits m, add uri pos id.toNat (s.mpd.edited edits) = some (id.toNat, m)) ∧
    (env.Alone → s.mpd.queue.Inserted t.mpd.queue
      (if pos = -1 then s.mpd.queue.songs.length else unsigned pos) id.toNat uri)

/-- What is wanted of a call which reports success. -/
def ExactlyOnce (s : World) (action : RetryAct) (t : World) (result : Int) : Prop :=
  0 ≤ result →
    match action with
    | .insert uri pos _ env => InsertedOnce uri pos env s t result
    | action => ∀ sent ∈ action.command, AppliedOnce sent.1 sent.2 s t

/-- The condition on each step: MPD does not execute the command of the first attempt, lose
its connection before the reply is read, and execute the second one. -/
def NotTwice (s : World) (action : RetryAct) (_ : World) (_ : Int) : Prop :=
  match action with
  | .insert uri pos _ env => ¬ env.add.Twice (add uri pos) s.mpd
  | action => ∀ sent ∈ action.command, ¬ sent.1.Twice (plain sent.2) s.mpd

instance (s t : World) (result : Int) : ∀ action, Decidable (NotTwice s action t result)
  | .insert uri pos _ env => inferInstanceAs (Decidable (¬ env.add.Twice (add uri pos) s.mpd))
  | .deleteId .. | .next _ | .previous _ | .togglePause _ =>
      inferInstanceAs (Decidable (∀ sent ∈ (some _ : Option (CmdEnv × (Nat → Mpd → Option Mpd))),
        ¬ sent.1.Twice (plain sent.2) s.mpd))
  | .mpd _ => .isTrue fun _ there => by cases there

/-- A call which is one command. -/
theorem appliedOnce_iff {s t : World} {env : CmdEnv} {cmd : Nat → Mpd → Option Mpd} {result : Int}
    (ran : (let (done, w) := MpdCli.command s env cmd
      (w, if done then (0 : Int) else -1)) = (t, result)) :
    (0 ≤ result → AppliedOnce env cmd s t) ↔ ¬ env.Twice (plain cmd) s.mpd := by
  unfold MpdCli.command at ran
  cases sent : retryCmd env (plain cmd) s.mpd with
  | mk ended m =>
      have sent' : retryCmd env (fun chosen mpd => (cmd chosen mpd).map fun mpd => ((), mpd)) s.mpd =
        (ended, m) := sent
      rw [sent'] at ran
      cases ended with
      | success done =>
          cases ran
          constructor
          · intro applied
            exact (executions_of_success sent).mp (applied (Int.le_refl 0)).1
          · intro once _
            obtain ⟨chosen, edits, alone, executed⟩ := applied_of_success sent once
            obtain ⟨_, executed, same⟩ := Option.map_eq_some_iff.mp executed
            cases same
            exact ⟨(executions_of_success sent).mpr once, chosen, edits, alone, executed⟩
      | error =>
          cases ran
          refine iff_of_true (fun failed => absurd failed (by decide)) fun twice => ?_
          obtain ⟨_, _, succeeds⟩ := success_of_twice twice
          rw [succeeds] at sent
          cases sent
      | notOk =>
          cases ran
          refine iff_of_true (fun failed => absurd failed (by decide)) fun twice => ?_
          obtain ⟨_, _, succeeds⟩ := success_of_twice twice
          rw [succeeds] at sent
          cases sent

theorem insertedOnce_iff {s t : World} {uri : String} {pos : Int} {song : UpSong}
    {env : InsertEnv} {result : Int} (ran : MpdCli.insert s uri pos song env = (result, t)) :
    (0 ≤ result → InsertedOnce uri pos env s t result) ↔
      ¬ env.add.Twice (add uri pos) s.mpd := by
  unfold MpdCli.insert at ran
  have failed (twice : env.add.Twice (add uri pos) s.mpd) :
      ∃ id m, retryCmd env.add (add uri pos) s.mpd = (.success id, m) :=
    success_of_twice twice
  cases sent : retryCmd env.add (add uri pos) s.mpd with
  | mk ended m =>
      have sent' : retryCmd env.add (fun newid mpd => mpd.addId uri
          (if pos = -1 then mpd.queue.songs.length else unsigned pos) newid) s.mpd =
        (ended, m) := sent
      dsimp only at ran
      rw [sent'] at ran
      cases ended with
      | notOk =>
          cases ran
          refine iff_of_true (fun failed => absurd failed (by decide)) fun twice => ?_
          obtain ⟨_, _, succeeds⟩ := failed twice
          rw [succeeds] at sent
          cases sent
      | error =>
          cases ran
          refine iff_of_true (fun failed => absurd failed (by decide)) fun twice => ?_
          obtain ⟨_, _, succeeds⟩ := failed twice
          rw [succeeds] at sent
          cases sent
      | success id =>
          obtain ⟨told, after⟩ := Prod.mk.inj ran
          have known : result = id := told.symm.trans (lastinsert_updStatus _ env.status).1
          constructor
          · intro inserted
            exact (executions_of_success sent).mp (inserted (by omega)).1
          · intro once _
            obtain ⟨chosen, edits, alone, executed⟩ := applied_of_success sent once
            obtain ⟨rfl, queue, placed, changed⟩ := (Mpd.addId_eq_some_iff _ _ _ _ _ _).mp executed
            unfold InsertedOnce
            rw [known, Int.toNat_natCast]
            refine ⟨(executions_of_success sent).mpr once, ⟨edits, m, executed⟩, fun quiet => ?_⟩
            rw [alone quiet.add] at placed
            have fresh : s.mpd.queue.Fresh id :=
              (Mpd.addId_ne_none_iff.mp (by
                rw [alone quiet.add] at executed
                exact Option.ne_none_iff_exists'.mpr ⟨_, executed⟩)).1
            rw [← after]
            dsimp only
            rw [MpdCli.mpd_updStatus_alone quiet]
            refine MpdCli.inserted_sendTagData fresh s.cli song quiet.tags ?_
            rw [changed]
            exact ⟨_, rfl, rfl, (MpdQueue.songs_insertAt placed).1⟩

theorem exactlyOnce_step_iff {s t : World} {action : RetryAct} {result : Int}
    (taken : step s action = some (t, result)) :
    ExactlyOnce s action t result ↔ NotTwice s action t result := by
  have other {env : CmdEnv} {cmd : Nat → Mpd → Option Mpd}
      (only : action.command = some (env, cmd))
      (ran : (let (done, w) := MpdCli.command s env cmd
        (w, if done then (0 : Int) else -1)) = (t, result)) :
      (0 ≤ result → ∀ sent ∈ action.command, AppliedOnce sent.1 sent.2 s t) ↔
        ∀ sent ∈ action.command, ¬ sent.1.Twice (plain sent.2) s.mpd := by
    simpa only [only, Option.mem_some_iff, forall_eq'] using appliedOnce_iff ran
  cases action with
  | insert uri pos song env =>
      obtain ⟨after, told⟩ := Prod.mk.inj (Option.some.inj taken)
      exact insertedOnce_iff (Prod.ext told after)
  | deleteId id env => exact other rfl (Option.some.inj taken)
  | next env => exact other rfl (Option.some.inj taken)
  | previous env => exact other rfl (Option.some.inj taken)
  | togglePause env => exact other rfl (Option.some.inj taken)
  | mpd changed => exact iff_of_true (fun _ _ there => by cases there) fun _ there => by cases there

/-- In every run, each call which reports success had exactly one effect if and only if no
call is executed twice. -/
theorem exactlyOnce_iff (w : World) (actions : List RetryAct) :
    Machine.Along ExactlyOnce step w actions ↔ Machine.Along NotTwice step w actions := by
  have agree (s : World) (action : RetryAct) (t : World) (result : Int) (_ : True)
      (taken : step s action = some (t, result)) :
      (ExactlyOnce s action t result ↔ NotTwice s action t result) ∧
        (ExactlyOnce s action t result → True) :=
    ⟨exactlyOnce_step_iff taken, fun _ => trivial⟩
  exact Machine.along_iff_of_invariant agree w actions trivial

/-- A lost reply: the song is in the queue twice, and `insert` reports success. -/
theorem insert_not_exactlyOnce :
    let lost : InsertEnv :=
      { add :=
          { first := { outcome := .lost, newid := 1 }, reopened := true, second := { newid := 2 } } }
    ¬ Machine.Along ExactlyOnce step {} [.insert "http://h/a" 0 {} lost] ∧
      ∃ w, Machine.run step {} [.insert "http://h/a" 0 {} lost] = some (w, [2]) ∧
        w.mpd.queue.songs.map MpdSong.uri = ["http://h/a", "http://h/a"] := by
  intro lost
  constructor
  · rw [exactlyOnce_iff]
    decide
  · exact ⟨_, rfl, rfl⟩

end RetryAct

end Upmpdcli
