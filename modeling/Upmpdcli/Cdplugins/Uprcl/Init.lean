import Mathlib.Logic.Function.Basic
import Upmpdcli.Lib.Count
import Upmpdcli.Lib.Machine
import Upmpdcli.Lib.Mutex

set_option autoImplicit false

/- The update of the index by `uprclinit.py` while requests are served: the running flag and the
`ReadWriteLock` of `rwlock.py`. -/
namespace Upmpdcli

/-- A browse or a search, or an update or reset request of the Web interface, which first does the
same. -/
inductive Reader
  | request
  | control (rebuild : Bool)
deriving DecidableEq

/-- What comes next of `acquire_read` or of `release_read`. -/
inductive ReadStage
  | lock
  | count
  | unlock
deriving DecidableEq

/-- Where a thread is in `acquire_write`. -/
inductive WriteStage
  | lock
  | test
  | waiting
  | woken
deriving DecidableEq

/-- The write sections of `_update_index`: at its start and at its end. -/
inductive Phase
  | start (rebuild : Bool)
  | finish
deriving DecidableEq

/-- Where a thread is. `free` is the result of `initdone`. -/
inductive UprclCall
  | idle
  | acquireRead (reader : Reader) (stage : ReadStage)
  | testRunning (reader : Reader)
  | reading (reader : Reader) (free : Bool)
  | releaseRead (reader : Reader) (free : Bool) (stage : ReadStage)
  | startThread (rebuild : Bool)
  | acquireWrite (phase : Phase) (stage : WriteStage)
  | setRunning (phase : Phase)
  | releaseWrite (phase : Phase)
  | rebuilding
deriving DecidableEq

/-- `running` is what is assigned to `g_initrunning`. -/
def Phase.running : Phase → String
  | .start rebuild => if rebuild then "Rebuilding" else "Updating"
  | .finish => ""

namespace UprclCall

/-- With the lock of the condition. -/
def locked : UprclCall → Bool
  | .acquireRead _ .count | .acquireRead _ .unlock => true
  | .releaseRead _ _ .count | .releaseRead _ _ .unlock => true
  | .acquireWrite _ .test | .setRunning _ | .releaseWrite _ => true
  | _ => false

/-- Among the readers. -/
def counted : UprclCall → Bool
  | .acquireRead _ .unlock | .testRunning _ | .reading _ _ => true
  | .releaseRead _ _ .lock | .releaseRead _ _ .count => true
  | _ => false

/-- With the read lock, after it has found that nothing runs. -/
def sawFree : UprclCall → Bool
  | .reading _ free => free
  | .releaseRead _ free .lock | .releaseRead _ free .count => free
  | _ => false

/-- In the write section. -/
def writing : UprclCall → Bool
  | .setRunning _ | .releaseWrite _ => true
  | _ => false

/-- An update thread. -/
def updating : UprclCall → Bool
  | .acquireWrite _ _ | .setRunning _ | .releaseWrite _ | .rebuilding => true
  | _ => false

/-- An update thread from where it has set the running flag to where it resets it. -/
def running : UprclCall → Bool
  | .releaseWrite (.start _) | .rebuilding | .acquireWrite .finish _ | .setRunning .finish => true
  | _ => false

/-- An update thread, or a request for one which has found that nothing runs. -/
def pending : UprclCall → Bool
  | .reading (.control _) free => free
  | .releaseRead (.control _) free _ => free
  | .startThread _ => true
  | call => call.updating

/-- `notifyAll`, for a thread which waits. -/
def notified : UprclCall → UprclCall
  | .acquireWrite phase .waiting => .acquireWrite phase .woken
  | call => call

end UprclCall

structure UprclThreads (ι : Type) where
  readers : Nat := 0
  owner : Option ι := none
  g_initrunning : String := ""
  calls : ι → UprclCall := fun _ => .idle

namespace UprclThreads

variable {ι : Type} [DecidableEq ι]

/-- A request arrives, a thread goes on, or it starts an update thread. -/
inductive Act (ι : Type)
  | arrives (thread : ι) (reader : Reader)
  | statement (thread : ι)
  | start (thread child : ι)

def goTo (s : UprclThreads ι) (thread : ι) (call : UprclCall) : UprclThreads ι :=
  { s with calls := Function.update s.calls thread call }

/-- A thread takes the lock of the condition, when it is free. -/
def take (s : UprclThreads ι) (thread : ι) (call : UprclCall) : Option (UprclThreads ι) :=
  if s.owner = none then some { s.goTo thread call with owner := some thread } else none

def release (s : UprclThreads ι) (thread : ι) (call : UprclCall) : UprclThreads ι :=
  { s.goTo thread call with owner := none }

/-- After `release_read`. -/
def afterRead (free : Bool) : Reader → UprclCall
  | .request => .idle
  | .control rebuild => if free then .startThread rebuild else .idle

/-- `_readers -= 1` and the notification. -/
def uncount (s : UprclThreads ι) : UprclThreads ι :=
  if s.readers - 1 = 0 then
    { s with readers := s.readers - 1, calls := fun thread => (s.calls thread).notified }
  else { s with readers := s.readers - 1 }

/-- The next statement of a thread, with what it reads of the running flag. -/
def statement (s : UprclThreads ι) (thread : ι) : Option (UprclThreads ι × Option String) :=
  match s.calls thread with
  | .idle => none
  | .acquireRead reader .lock => (s.take thread (.acquireRead reader .count)).map (·, none)
  | .acquireRead reader .count =>
      some ({ s.goTo thread (.acquireRead reader .unlock) with readers := s.readers + 1 }, none)
  | .acquireRead reader .unlock => some (s.release thread (.testRunning reader), none)
  | .testRunning reader =>
      some (s.goTo thread (.reading reader (s.g_initrunning = "")), some s.g_initrunning)
  -- the entries of the trees, when nothing runs, or the thread object
  | .reading reader free => some (s.goTo thread (.releaseRead reader free .lock), none)
  | .releaseRead reader free .lock =>
      (s.take thread (.releaseRead reader free .count)).map (·, none)
  | .releaseRead reader free .count =>
      some (s.uncount.goTo thread (.releaseRead reader free .unlock), none)
  | .releaseRead reader free .unlock => some (s.release thread (afterRead free reader), none)
  | .startThread _ => none
  | .acquireWrite phase .lock => (s.take thread (.acquireWrite phase .test)).map (·, none)
  | .acquireWrite phase .test =>
      if s.readers > 0 then some (s.release thread (.acquireWrite phase .waiting), none)
      else some (s.goTo thread (.setRunning phase), none)
  | .acquireWrite _ .waiting => none
  | .acquireWrite phase .woken => (s.take thread (.acquireWrite phase .test)).map (·, none)
  | .setRunning phase =>
      some ({ s.goTo thread (.releaseWrite phase) with g_initrunning := phase.running }, none)
  | .releaseWrite (.start _) => some (s.release thread .rebuilding, none)
  | .releaseWrite .finish => some (s.release thread .idle, none)
  -- the indexer, the trees and the tag globals, or an exception
  | .rebuilding => some (s.goTo thread (.acquireWrite .finish .lock), none)

def step (s : UprclThreads ι) : Act ι → Option (UprclThreads ι × Option String)
  | .arrives thread reader =>
      if s.calls thread = .idle then some (s.goTo thread (.acquireRead reader .lock), none)
      else none
  | .statement thread => s.statement thread
  | .start thread child =>
      match s.calls thread with
      | .startThread rebuild =>
          if s.calls child = .idle then
            some ((s.goTo thread .idle).goTo child (.acquireWrite (.start rebuild) .lock), none)
          else none
      | _ => none

/-- At most one update runs, none does so while a reader goes on which has found that nothing
runs, and nobody finds that while one does. -/
structure Excludes (s : UprclThreads ι) (_ : Act ι) (t : UprclThreads ι) (seen : Option String) :
    Prop where
  one : ∀ i j, (t.calls i).updating = true → (t.calls j).updating = true → i = j
  readers : ∀ i j, (t.calls i).sawFree = true → (t.calls j).running = false
  seen : ∀ i, (s.calls i).running = true → seen ≠ some ""

/-- The update or reset request which makes its test and finds that nothing runs. -/
def Act.finds (s : UprclThreads ι) : Act ι → Option ι
  | .statement thread =>
      match s.calls thread with
      | .testRunning (.control _) => if s.g_initrunning = "" then some thread else none
      | _ => none
  | _ => none

/-- An update or reset request finds that nothing runs only when no other one has done so whose
update is not ended. -/
def Alone (s : UprclThreads ι) (act : Act ι) (_ : UprclThreads ι) (_ : Option String) : Prop :=
  ∀ thread ∈ act.finds s, ∀ other, other ≠ thread → (s.calls other).pending = false

/-- The invariant. -/
structure Safe (s : UprclThreads ι) : Prop where
  held : Mutex.Held s.owner fun thread => (s.calls thread).locked = true
  counts : Count.Counts s.readers fun thread => (s.calls thread).counted = true
  alone : ∀ i j, (s.calls i).pending = true → (s.calls j).pending = true → i = j
  writers : ∀ i, (s.calls i).writing = true → s.readers = 0
  flagged : ∀ i, (s.calls i).running = true → s.g_initrunning ≠ ""
  free : ∀ i j, (s.calls i).sawFree = true → (s.calls j).running = false

section Steps

variable {s t : UprclThreads ι} {thread : ι} {call : UprclCall} {seen : Option String}

@[simp] theorem goTo_self : (s.goTo thread call).calls thread = call := by
  simp [UprclThreads.goTo]

theorem goTo_other {other : ι} (ne : other ≠ thread) :
    (s.goTo thread call).calls other = s.calls other := by
  simp [UprclThreads.goTo, ne]

/-- A call which goes on has no more than it had, or what it gets is free. -/
structure Moves (s : UprclThreads ι) (thread : ι) (call : UprclCall) : Prop where
  pending : call.pending = true → (s.calls thread).pending = true ∨
    ∀ other, other ≠ thread → (s.calls other).pending = false
  running : call.running = true → (s.calls thread).running = true
  sawFree : call.sawFree = true → (s.calls thread).sawFree = true ∨ s.g_initrunning = ""

/-- A thread is the one which moves, or is where it was. -/
theorem goTo_cases (s : UprclThreads ι) (thread : ι) (call : UprclCall) (i : ι) :
    i = thread ∧ (s.goTo thread call).calls i = call ∨
      i ≠ thread ∧ (s.goTo thread call).calls i = s.calls i := by
  by_cases same : i = thread
  · subst same
    exact .inl ⟨rfl, goTo_self⟩
  · exact .inr ⟨same, goTo_other same⟩

theorem Safe.move (safe : s.Safe) (moves : Moves s thread call) {owner : Option ι} {readers : Nat}
    (held : Mutex.Held owner fun i => ((s.goTo thread call).calls i).locked = true)
    (counts : Count.Counts readers fun i => ((s.goTo thread call).calls i).counted = true)
    (writers : ∀ i, ((s.goTo thread call).calls i).writing = true → readers = 0) :
    Safe { s.goTo thread call with owner, readers } where
  held := held
  counts := counts
  writers := writers
  alone := by
    have other_pending : ∀ j, j ≠ thread → call.pending = true → (s.calls j).pending = true →
        False := by
      intro j other pending at_j
      rcases moves.pending pending with before | nobody
      · exact other (safe.alone j thread at_j before)
      · rw [nobody j other] at at_j
        cases at_j
    intro i j
    dsimp only
    rcases goTo_cases s thread call i with ⟨rfl, at_i⟩ | ⟨ne_i, at_i⟩
    · rcases goTo_cases s i call j with ⟨rfl, at_j⟩ | ⟨ne_j, at_j⟩
      · exact fun _ _ => rfl
      · rw [at_i, at_j]
        exact fun pending at_j => (other_pending j ne_j pending at_j).elim
    · rcases goTo_cases s thread call j with ⟨rfl, at_j⟩ | ⟨ne_j, at_j⟩
      · rw [at_i, at_j]
        exact fun at_i pending => (other_pending i ne_i pending at_i).elim
      · rw [at_i, at_j]
        exact safe.alone i j
  flagged := by
    intro i
    dsimp only
    rcases goTo_cases s thread call i with ⟨rfl, at_i⟩ | ⟨_, at_i⟩
    · rw [at_i]
      exact fun running => safe.flagged i (moves.running running)
    · rw [at_i]
      exact safe.flagged i
  free := by
    have before : ∀ j, ((s.goTo thread call).calls j).running = true →
        (s.calls j).running = true := by
      intro j
      rcases goTo_cases s thread call j with ⟨rfl, at_j⟩ | ⟨_, at_j⟩
      · rw [at_j]
        exact moves.running
      · rw [at_j]
        exact id
    intro i j sawFree
    dsimp only at sawFree ⊢
    rw [← Bool.not_eq_true]
    intro running
    replace running := before j running
    rcases goTo_cases s thread call i with ⟨rfl, at_i⟩ | ⟨_, at_i⟩
    · rw [at_i] at sawFree
      rcases moves.sawFree sawFree with old | free
      · rw [safe.free i j old] at running
        cases running
      · exact safe.flagged j running free
    · rw [at_i] at sawFree
      rw [safe.free i j sawFree] at running
      cases running

/-- What does not change of a thread when the number of readers does not. -/
structure Keeps (s : UprclThreads ι) (thread : ι) (call : UprclCall) : Prop
    extends Moves s thread call where
  counted : call.counted = (s.calls thread).counted
  writing : call.writing = true → (s.calls thread).writing = true ∨ s.readers = 0

/-- A call has nothing new. -/
def follows (call old : UprclCall) : Bool :=
  (call.pending ≤ old.pending) && (call.running ≤ old.running) && (call.sawFree ≤ old.sawFree) &&
    (call.counted == old.counted) && (call.writing ≤ old.writing)

omit [DecidableEq ι] in
theorem keeps_of_follows {old : UprclCall} (at_thread : s.calls thread = old)
    (follows : follows call old = true) : Keeps s thread call := by
  simp only [UprclThreads.follows, Bool.and_eq_true, decide_eq_true_eq, beq_iff_eq] at follows
  obtain ⟨⟨⟨⟨pending, running⟩, sawFree⟩, counted⟩, writing⟩ := follows
  rw [← at_thread] at pending running sawFree counted writing
  exact ⟨⟨fun here => .inl (pending here), running, fun here => .inl (sawFree here)⟩, counted,
    fun here => .inl (writing here)⟩

theorem Safe.keep (safe : s.Safe) (keeps : Keeps s thread call) {owner : Option ι}
    (held : Mutex.Held owner fun i => ((s.goTo thread call).calls i).locked = true) :
    Safe { s.goTo thread call with owner } := by
  refine safe.move keeps.toMoves held ?_ ?_
  · refine safe.counts.congr fun i => ?_
    rcases goTo_cases s thread call i with ⟨rfl, at_i⟩ | ⟨_, at_i⟩
    · rw [at_i, keeps.counted]
    · rw [at_i]
  · intro i
    rcases goTo_cases s thread call i with ⟨rfl, at_i⟩ | ⟨_, at_i⟩
    · rw [at_i]
      exact fun writing => (keeps.writing writing).elim (safe.writers i) id
    · rw [at_i]
      exact safe.writers i

theorem Safe.held_goTo (safe : s.Safe) (locked : call.locked = (s.calls thread).locked) :
    Mutex.Held s.owner fun i => ((s.goTo thread call).calls i).locked = true := by
  refine safe.held.congr fun i => ?_
  rcases goTo_cases s thread call i with ⟨rfl, at_i⟩ | ⟨_, at_i⟩
  · rw [at_i, locked]
  · rw [at_i]

/-- A thread goes on with or without the lock, as it was. -/
theorem Safe.goTo (safe : s.Safe) (keeps : Keeps s thread call)
    (locked : call.locked = (s.calls thread).locked) : (s.goTo thread call).Safe :=
  safe.keep keeps (safe.held_goTo locked)

theorem Safe.take (safe : s.Safe) (keeps : Keeps s thread call) (locked : call.locked = true)
    (taken : s.take thread call = some t) : t.Safe := by
  unfold UprclThreads.take at taken
  split at taken
  · rename_i free
    cases taken
    have held := safe.held
    rw [free] at held
    refine safe.keep keeps (held.lock (by rw [goTo_self]; exact locked) fun other ne => ?_)
    rw [goTo_other ne]
  · cases taken

theorem Safe.release (safe : s.Safe) (keeps : Keeps s thread call)
    (locked : (s.calls thread).locked = true) (unlocked : call.locked = false) :
    (s.release thread call).Safe := by
  refine safe.keep keeps (safe.held.unlock locked ?_ fun other ne => ?_)
  · rw [goTo_self, unlocked]
    exact Bool.false_ne_true
  · rw [goTo_other ne]

theorem locked_of_writing (writing : call.writing = true) : call.locked = true := by
  cases call <;> first | rfl | cases writing

/-- While a thread has the lock and is not in the write section, nobody is. -/
theorem Safe.not_writing (safe : s.Safe) (locked : (s.calls thread).locked = true)
    (reader : call.writing = false) (i : ι) :
    ((s.goTo thread call).calls i).writing = false := by
  rcases goTo_cases s thread call i with ⟨_, at_i⟩ | ⟨ne, at_i⟩
  · rw [at_i, reader]
  · rw [at_i, ← Bool.not_eq_true]
    exact fun writing => ne (safe.held.unique (locked_of_writing writing) locked)

/-- `_readers += 1`. -/
theorem Safe.count (safe : s.Safe) {reader : Reader}
    (at_thread : s.calls thread = .acquireRead reader .count) :
    Safe { s.goTo thread (.acquireRead reader .unlock) with readers := s.readers + 1 } := by
  refine safe.move ⟨?_, ?_, ?_⟩ (safe.held_goTo (by rw [at_thread]; rfl)) ?_ ?_
  · rintro ⟨⟩
  · rintro ⟨⟩
  · rintro ⟨⟩
  · refine safe.counts.enter ?_ (by rw [goTo_self]; rfl) fun other ne => ?_
    · rw [at_thread]
      rintro ⟨⟩
    · rw [goTo_other ne]
  · intro i writing
    rw [safe.not_writing (by rw [at_thread]; rfl) rfl i] at writing
    cases writing

/-- What the invariant says of a call. -/
structure Alike (call other : UprclCall) : Prop where
  locked : call.locked = other.locked
  counted : call.counted = other.counted
  sawFree : call.sawFree = other.sawFree
  writing : call.writing = other.writing
  running : call.running = other.running
  pending : call.pending = other.pending

theorem alike_notified (call : UprclCall) : Alike call.notified call := by
  cases call with
  | acquireWrite phase stage =>
      cases stage <;> cases phase <;> exact ⟨rfl, rfl, rfl, rfl, rfl, rfl⟩
  | _ => exact ⟨rfl, rfl, rfl, rfl, rfl, rfl⟩

omit [DecidableEq ι] in
/-- `notifyAll`. -/
theorem Safe.notify (safe : s.Safe) :
    Safe { s with calls := fun thread => (s.calls thread).notified } where
  held := safe.held.congr fun i => by dsimp only; rw [(alike_notified _).locked]
  counts := safe.counts.congr fun i => by dsimp only; rw [(alike_notified _).counted]
  alone i j := by
    dsimp only
    rw [(alike_notified _).pending, (alike_notified _).pending]
    exact safe.alone i j
  writers i := by
    dsimp only
    rw [(alike_notified _).writing]
    exact safe.writers i
  flagged i := by
    dsimp only
    rw [(alike_notified _).running]
    exact safe.flagged i
  free i j := by
    dsimp only
    rw [(alike_notified _).sawFree, (alike_notified _).running]
    exact safe.free i j

/-- A reader is not counted any more. -/
theorem Safe.uncounted (safe : s.Safe) {reader : Reader} {free : Bool}
    (at_thread : s.calls thread = .releaseRead reader free .count) :
    Safe { s.goTo thread (.releaseRead reader free .unlock) with readers := s.readers - 1 } := by
  refine safe.move ⟨?_, ?_, ?_⟩ (safe.held_goTo (by rw [at_thread]; rfl)) ?_ ?_
  · rw [at_thread]
    cases reader with
    | request => rintro ⟨⟩
    | control rebuild => exact .inl
  · rintro ⟨⟩
  · rintro ⟨⟩
  · refine safe.counts.leave (by rw [at_thread]; rfl) ?_ fun other ne => ?_
    · rw [goTo_self]
      rintro ⟨⟩
    · rw [goTo_other ne]
  · intro i writing
    rw [safe.not_writing (by rw [at_thread]; rfl) rfl i] at writing
    cases writing

/-- `_readers -= 1`. -/
theorem Safe.uncount (safe : s.Safe) {reader : Reader} {free : Bool}
    (at_thread : s.calls thread = .releaseRead reader free .count) :
    (s.uncount.goTo thread (.releaseRead reader free .unlock)).Safe := by
  unfold UprclThreads.uncount
  split
  · exact safe.notify.uncounted (by dsimp only; rw [at_thread]; rfl)
  · exact safe.uncounted at_thread

omit [DecidableEq ι] in
/-- While a thread has the lock of a write section, nobody reads. -/
theorem Safe.nobody_reads (safe : s.Safe) (nobody : s.readers = 0) (i : ι) :
    (s.calls i).counted = false := by
  have counts := safe.counts
  rw [nobody] at counts
  rw [← Bool.not_eq_true]
  exact counts.outside_of_zero i

theorem counted_of_sawFree (sawFree : call.sawFree = true) : call.counted = true := by
  cases call with
  | reading reader free => rfl
  | releaseRead reader free stage => cases stage <;> first | rfl | cases sawFree
  | _ => cases sawFree

theorem pending_of_updating (updating : call.updating = true) : call.pending = true := by
  cases call <;> first | exact updating | cases updating

theorem updating_of_running (running : call.running = true) : call.updating = true := by
  cases call <;> first | rfl | cases running

/-- `g_initrunning` is assigned. -/
theorem Safe.setRunning (safe : s.Safe) {phase : Phase}
    (at_thread : s.calls thread = .setRunning phase) :
    Safe { s.goTo thread (.releaseWrite phase) with g_initrunning := phase.running } := by
  have nobody := safe.writers thread (by rw [at_thread]; rfl)
  have pending : (s.calls thread).pending = true := by rw [at_thread]; rfl
  have alone : ∀ j, ((s.goTo thread (.releaseWrite phase)).calls j).pending = true →
      j = thread := by
    intro j
    rcases goTo_cases s thread (.releaseWrite phase) j with ⟨same, _⟩ | ⟨_, at_j⟩
    · exact fun _ => same
    · rw [at_j]
      exact fun at_j => safe.alone j thread at_j pending
  refine ⟨safe.held_goTo (by rw [at_thread]; rfl), ?_, ?_, ?_, ?_, ?_⟩
  · refine safe.counts.congr fun i => ?_
    rcases goTo_cases s thread (.releaseWrite phase) i with ⟨rfl, at_i⟩ | ⟨_, at_i⟩
    · dsimp only
      rw [at_i, at_thread]
      rfl
    · dsimp only
      rw [at_i]
  · exact fun i j at_i at_j => (alone i at_i).trans (alone j at_j).symm
  · exact fun _ _ => nobody
  · intro i running
    rw [alone i (pending_of_updating (updating_of_running running))] at running
    dsimp only at running
    rw [goTo_self] at running
    cases phase with
    | start rebuild =>
        change (Phase.start rebuild).running ≠ ""
        cases rebuild <;> decide
    | finish => cases running
  · intro i j sawFree
    have outside := safe.nobody_reads nobody i
    rcases goTo_cases s thread (.releaseWrite phase) i with ⟨rfl, at_i⟩ | ⟨_, at_i⟩
    · dsimp only at sawFree
      rw [at_i] at sawFree
      cases sawFree
    · dsimp only at sawFree
      rw [at_i] at sawFree
      rw [counted_of_sawFree sawFree] at outside
      cases outside

/-- The test of the running flag. The one of an update or reset request may find that nothing runs
only while it is alone. -/
theorem Safe.testRunning (safe : s.Safe) {reader : Reader}
    (alone : Alone s (.statement thread) t seen)
    (at_thread : s.calls thread = .testRunning reader) :
    (s.goTo thread (.reading reader (s.g_initrunning = ""))).Safe := by
  refine safe.goTo ⟨⟨?_, ?_, ?_⟩, ?_, ?_⟩ (by rw [at_thread]; rfl)
  · cases reader with
    | request => rintro ⟨⟩
    | control rebuild =>
        intro free
        refine .inr (alone thread ?_)
        rw [Act.finds, at_thread]
        exact if_pos (of_decide_eq_true free)
  · rintro ⟨⟩
  · exact fun free => .inr (of_decide_eq_true free)
  · rw [at_thread]
    rfl
  · rintro ⟨⟩

theorem Safe.statement (safe : s.Safe) (alone : Alone s (.statement thread) t seen)
    (taken : s.statement thread = some (t, seen)) : t.Safe := by
  unfold UprclThreads.statement at taken
  cases at_thread : s.calls thread with
  | idle =>
      rw [at_thread] at taken
      cases taken
  | acquireRead reader stage =>
      rw [at_thread] at taken
      cases stage with
      | lock =>
          obtain ⟨next, took, same⟩ := Option.map_eq_some_iff.mp taken
          cases same
          exact safe.take (keeps_of_follows at_thread rfl) rfl took
      | count =>
          cases taken
          exact safe.count at_thread
      | unlock =>
          cases taken
          exact safe.release (keeps_of_follows at_thread rfl) (by rw [at_thread]; rfl) rfl
  | testRunning reader =>
      rw [at_thread] at taken
      cases taken
      exact safe.testRunning alone at_thread
  | reading reader free =>
      rw [at_thread] at taken
      cases taken
      refine safe.goTo (keeps_of_follows at_thread ?_) (by rw [at_thread]; rfl)
      cases reader <;> cases free <;> rfl
  | releaseRead reader free stage =>
      rw [at_thread] at taken
      cases stage with
      | lock =>
          obtain ⟨next, took, same⟩ := Option.map_eq_some_iff.mp taken
          cases same
          refine safe.take (keeps_of_follows at_thread ?_) rfl took
          cases reader <;> cases free <;> rfl
      | count =>
          cases taken
          exact safe.uncount at_thread
      | unlock =>
          cases taken
          refine safe.release (keeps_of_follows at_thread ?_) (by rw [at_thread]; rfl) ?_
          · cases reader <;> cases free <;> rfl
          · cases reader <;> cases free <;> rfl
  | startThread rebuild =>
      rw [at_thread] at taken
      cases taken
  | acquireWrite phase stage =>
      rw [at_thread] at taken
      have keeps : ∀ stage, Keeps s thread (.acquireWrite phase stage) := by
        intro stage
        refine keeps_of_follows at_thread ?_
        cases phase <;> rfl
      cases stage with
      | lock | woken =>
          obtain ⟨next, took, same⟩ := Option.map_eq_some_iff.mp taken
          cases same
          exact safe.take (keeps .test) rfl took
      | test =>
          dsimp only at taken
          split at taken
          · cases taken
            exact safe.release (keeps .waiting) (by rw [at_thread]; rfl) rfl
          · rename_i nobody
            cases taken
            refine safe.goTo ⟨⟨?_, ?_, ?_⟩, ?_, ?_⟩ (by rw [at_thread]; rfl)
            · rw [at_thread]
              exact fun _ => .inl rfl
            · rw [at_thread]
              cases phase with
              | start rebuild => rintro ⟨⟩
              | finish => exact fun _ => rfl
            · rintro ⟨⟩
            · rw [at_thread]
              rfl
            · exact fun _ => .inr (by omega)
      | waiting => cases taken
  | setRunning phase =>
      rw [at_thread] at taken
      cases taken
      exact safe.setRunning at_thread
  | releaseWrite phase =>
      rw [at_thread] at taken
      cases phase with
      | start rebuild | finish =>
          cases taken
          exact safe.release (keeps_of_follows at_thread rfl) (by rw [at_thread]; rfl) rfl
  | rebuilding =>
      rw [at_thread] at taken
      cases taken
      exact safe.goTo (keeps_of_follows at_thread rfl) (by rw [at_thread]; rfl)

/-- `idxthread.start()`. -/
theorem Safe.start (safe : s.Safe) {child : ι} {rebuild : Bool}
    (at_thread : s.calls thread = .startThread rebuild) (at_child : s.calls child = .idle) :
    ((s.goTo thread .idle).goTo child (.acquireWrite (.start rebuild) .lock)).Safe := by
  have apart : child ≠ thread := by
    rintro rfl
    rw [at_thread] at at_child
    cases at_child
  have gone : (s.goTo thread .idle).Safe :=
    safe.goTo (keeps_of_follows at_thread rfl) (by rw [at_thread]; rfl)
  have still : (s.goTo thread .idle).calls child = .idle := by rw [goTo_other apart, at_child]
  refine gone.goTo ⟨⟨?_, ?_, ?_⟩, ?_, ?_⟩ (by rw [still]; rfl)
  · intro _
    refine .inr fun other _ => ?_
    rcases goTo_cases s thread .idle other with ⟨_, at_other⟩ | ⟨ne, at_other⟩
    · rw [at_other]
      rfl
    · rw [at_other, ← Bool.not_eq_true]
      exact fun pending => ne (safe.alone other thread pending (by rw [at_thread]; rfl))
  · rintro ⟨⟩
  · rintro ⟨⟩
  · rw [still]
    rfl
  · rintro ⟨⟩

theorem Safe.step {act : Act ι} (safe : s.Safe) (alone : Alone s act t seen)
    (taken : s.step act = some (t, seen)) : t.Safe := by
  cases act with
  | arrives thread reader =>
      unfold UprclThreads.step at taken
      dsimp only at taken
      split at taken
      · rename_i at_thread
        cases taken
        exact safe.goTo (keeps_of_follows at_thread rfl) (by rw [at_thread]; rfl)
      · cases taken
  | statement thread => exact safe.statement alone taken
  | start thread child =>
      unfold UprclThreads.step at taken
      dsimp only at taken
      split at taken
      · rename_i at_thread
        split at taken
        · rename_i at_child
          cases taken
          exact safe.start at_thread at_child
        · cases taken
      · cases taken

omit [DecidableEq ι] in
theorem safe_initial : ({} : UprclThreads ι).Safe where
  held := fun _ => iff_of_false nofun nofun
  counts := Count.counts_zero fun _ => nofun
  alone := nofun
  writers := nofun
  flagged := nofun
  free := nofun

/-- Only the test of the flag says what it read. -/
theorem seen_eq {act : Act ι} {flag : String} (taken : s.step act = some (t, some flag)) :
    flag = s.g_initrunning := by
  cases act with
  | arrives thread reader => simp [UprclThreads.step] at taken
  | start thread child =>
      unfold UprclThreads.step at taken
      dsimp only at taken
      split at taken
      · simp at taken
      · cases taken
  | statement thread =>
      unfold UprclThreads.step UprclThreads.statement at taken
      dsimp only at taken
      split at taken
      case h_5 =>
        cases taken
        rfl
      case h_12 =>
        split at taken
        · cases taken
        · cases taken
      all_goals simp at taken

end Steps

/-- In every run in which the update and reset requests find that nothing runs only while none of
them is on its way, the index is not rebuilt under a reader. -/
theorem excludes_of_alone (acts : List (Act ι))
    (alone : Machine.Along Alone step ({} : UprclThreads ι) acts) :
    Machine.Along Excludes step ({} : UprclThreads ι) acts := by
  refine Machine.along_of_invariant ?_ _ acts safe_initial alone
  intro s act t seen safe met taken
  have next := safe.step met taken
  refine ⟨next, ?_, next.free, ?_⟩
  · exact fun i j at_i at_j => next.alone i j (pending_of_updating at_i) (pending_of_updating at_j)
  · intro i running said
    exact safe.flagged i running (seen_eq (said ▸ taken)).symm

section Runs

/-- The statements of a reader, to the end of `release_read`. -/
def reads (thread : ι) : List (Act ι) := List.replicate 8 (.statement thread)

/-- The statements of an update thread before it rebuilds, and after that. -/
def begins (thread : ι) : List (Act ι) := List.replicate 4 (.statement thread)

def ends (thread : ι) : List (Act ι) := List.replicate 5 (.statement thread)

instance (s : UprclThreads (Fin 5)) (act : Act (Fin 5)) (t : UprclThreads (Fin 5))
    (seen : Option String) : Decidable (Alone s act t seen) :=
  inferInstanceAs (Decidable (∀ thread ∈ act.finds s, ∀ other, other ≠ thread →
    (s.calls other).pending = false))

instance (s : UprclThreads (Fin 5)) (act : Act (Fin 5)) (t : UprclThreads (Fin 5))
    (seen : Option String) : Decidable (Excludes s act t seen) :=
  decidable_of_iff
    ((∀ i j, (t.calls i).updating = true → (t.calls j).updating = true → i = j) ∧
      (∀ i j, (t.calls i).sawFree = true → (t.calls j).running = false) ∧
      ∀ i, (s.calls i).running = true → seen ≠ some "")
    ⟨fun ⟨one, readers, seen⟩ => ⟨one, readers, seen⟩,
      fun ⟨one, readers, seen⟩ => ⟨one, readers, seen⟩⟩

/-- A browse, an update and a search while it runs. -/
theorem excludes_update :
    Machine.Along Excludes step ({} : UprclThreads (Fin 5))
      ([.arrives 0 .request] ++ reads 0 ++ [.arrives 1 (.control false)] ++ reads 1 ++
        [.start 1 2] ++ begins 2 ++ [.arrives 0 .request] ++ reads 0 ++ ends 2) := by
  refine excludes_of_alone _ ?_
  decide

/-- Two requests make their test before one of the updates has set the flag, and a browse comes
when the first update is ended. -/
theorem not_excludes_overlap :
    ¬ ∀ acts : List (Act (Fin 5)), Machine.Along Excludes step {} acts := by
  intro law
  have along := law (List.flatten [[.arrives 0 (.control false), .arrives 1 (.control true)],
    List.replicate 4 (.statement 0), List.replicate 4 (.statement 1),
    List.replicate 4 (.statement 0), List.replicate 4 (.statement 1),
    [.start 0 2, .start 1 3], begins 2, begins 3, ends 2,
    [.arrives 4 .request], List.replicate 4 (.statement 4)])
  exact absurd along (by decide)

end Runs

end UprclThreads

end Upmpdcli
