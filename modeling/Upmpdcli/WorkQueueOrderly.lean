import Mathlib.Order.Basic
import Upmpdcli.WorkQueue

set_option autoImplicit false

/- What holds of every orderly run of a `WorkQueue`: no task is lost or taken out of order, the
counters count, and no room and no task is forgotten by the wake-ups. -/
namespace Upmpdcli.WorkQueue

open Condvar

variable {T : Type}

def waitingClients (q : WorkQueue T) : Nat := q.clients.countP Waiter.waits

/-- The clients which wait for room, with no wake-up pending. -/
def asleepForRoom (q : WorkQueue T) : Nat := q.clients.countP (Waiter.asleep ClientWait.forRoom)

def wokenForRoom (q : WorkQueue T) : Nat := q.clients.countP (Waiter.woken ClientWait.forRoom)

def waitingWorkers (q : WorkQueue T) : Nat := q.m_worker_threads.countP Waiter.waits

def asleepWorkers (q : WorkQueue T) : Nat :=
  q.m_worker_threads.countP (Waiter.asleep fun _ => true)

def wokenWorkers (q : WorkQueue T) : Nat :=
  q.m_worker_threads.countP (Waiter.woken fun _ => true)

def exitedWorkers (q : WorkQueue T) : Nat := q.m_worker_threads.countP (· == .out .exited)

/-- Each task which has been put, in order, has been taken or flushed or is still queued. The
flag tells which were taken. -/
def Accounts (q : WorkQueue T) : Prop :=
  ∃ fates : List (T × Bool), q.puts = fates.map Prod.fst ++ q.m_queue ∧
    q.taken = (fates.filter (·.2)).map Prod.fst ∧
    q.flushed = (fates.filter (!·.2)).map Prod.fst

/-- The state between two steps. A client sleeps only when the room is promised to woken ones,
a worker only when the tasks are. -/
structure Correct (q : WorkQueue T) : Prop where
  accounts : q.Accounts
  clients_waiting : q.m_clients_waiting.toNat = q.waitingClients
  workers_waiting : q.m_workers_waiting.toNat = q.waitingWorkers
  room : 0 < q.asleepForRoom → q.m_high ≤ q.m_queue.length + q.wokenForRoom
  tasks : 0 < q.asleepWorkers → q.m_queue.length < q.m_low + q.wokenWorkers

/-- When `waitIdle` returns true nothing is queued and the workers are in `take`. -/
def Truthful (q : WorkQueue T) : Returned T → Prop
  | .waitIdle true => q.m_queue = [] ∧ ∀ worker ∈ q.m_worker_threads, worker.waits = true
  | .garbage => False
  | _ => True

/-- A step to a correct state, where what it returns is true. -/
structure Sound (_ : WorkQueue T) (_ : Action T) (q : WorkQueue T) (out : Returned T) : Prop where
  correct : q.Correct
  truthful : q.Truthful out

/-- A flush which goes through does not leave room to sleeping clients. -/
def FlushOrderly (q : WorkQueue T) (flushprevious : Bool) : Prop :=
  flushprevious = true → q.ok = true → q.full = false →
    q.asleepForRoom = 0 ∨ q.m_high ≤ 1 + q.wokenForRoom

instance (q : WorkQueue T) (flushprevious : Bool) : Decidable (q.FlushOrderly flushprevious) :=
  inferInstanceAs (Decidable (_ → _ → _ → _ ∨ _))

/-- The wake-up of a `take` which goes through is not given to a client which waits for
something else, while another one sleeps which waits for the room. -/
def TakeOrderly (q : WorkQueue T) (choice : Nat) : Prop :=
  q.ok = true → q.m_low ≤ q.m_queue.length →
    q.asleepForRoom = 0 ∨ q.clients[choice]?.any (Waiter.asleep ClientWait.forRoom) = true ∨
      q.m_high ≤ q.m_queue.length - 1 + q.wokenForRoom

instance (q : WorkQueue T) (choice : Nat) : Decidable (q.TakeOrderly choice) :=
  inferInstanceAs (Decidable (_ → _ → _ ∨ _ ∨ _))

/-- At the reset, no client is in a wait. -/
def ResetOrderly (q : WorkQueue T) : Prop :=
  q.m_worker_threads.length ≤ q.m_workers_exited.toNat → q.waitingClients = 0

instance (q : WorkQueue T) : Decidable q.ResetOrderly :=
  inferInstanceAs (Decidable (_ → _))

/-- Termination begins when no client sleeps in front of room. -/
def TerminateOrderly (q : WorkQueue T) : Prop :=
  q.m_worker_threads = [] ∨
    (q.asleepForRoom = 0 ∨ q.m_high ≤ q.m_queue.length) ∧ q.ResetOrderly

instance (q : WorkQueue T) : Decidable q.TerminateOrderly :=
  inferInstanceAs (Decidable (_ ∨ _ ∧ _))

/-- A worker gives up when no other one sleeps in front of enough tasks. -/
def ExitOrderly (q : WorkQueue T) : Prop := q.asleepWorkers = 0 ∨ q.m_queue.length < q.m_low

instance (q : WorkQueue T) : Decidable q.ExitOrderly := inferInstanceAs (Decidable (_ ∨ _))

/-- A client which was in a wait, and is now out of it. -/
def ResumeOrderly (q : WorkQueue T) : Option (Client T) → Prop
  | some (.wait (.put _ flushprevious) _) => q.FlushOrderly flushprevious
  | some (.wait .setTerminateAndWait _) => q.ResetOrderly
  | some (.wait .waitIdle _) => True
  | some (.out _) => True
  | none => True

instance (q : WorkQueue T) : (client : Option (Client T)) → Decidable (q.ResumeOrderly client)
  | some (.wait (.put _ flushprevious) _) =>
      inferInstanceAs (Decidable (q.FlushOrderly flushprevious))
  | some (.wait .setTerminateAndWait _) => inferInstanceAs (Decidable q.ResetOrderly)
  | some (.wait .waitIdle _) => .isTrue trivial
  | some (.out _) => .isTrue trivial
  | none => .isTrue trivial

/-- The condition on the step, before it is made. -/
def Orderly (q : WorkQueue T) : Action T → Prop
  | .start nworkers => q.m_worker_threads.length + nworkers < UInt32.size
  | .put _ _ flushprevious _ => q.m_openforbusiness = true → q.FlushOrderly flushprevious
  | .setTerminateAndWait _ => q.TerminateOrderly
  | .resume client _ => (q.leaveClient client).ResumeOrderly q.clients[client]?
  | .take _ choice => q.TakeOrderly choice
  | .resumeTake worker choice => (q.leaveWorker worker).TakeOrderly choice
  | .workerExit _ => q.ExitOrderly
  | .waitIdle _ => True
  | .closeShop => True

instance (q : WorkQueue T) : (action : Action T) → Decidable (q.Orderly action)
  | .start _ => inferInstanceAs (Decidable (_ < _))
  | .put _ _ flushprevious _ => inferInstanceAs (Decidable (_ → q.FlushOrderly flushprevious))
  | .setTerminateAndWait _ => inferInstanceAs (Decidable q.TerminateOrderly)
  | .resume client _ =>
      inferInstanceAs (Decidable ((q.leaveClient client).ResumeOrderly q.clients[client]?))
  | .take _ choice => inferInstanceAs (Decidable (q.TakeOrderly choice))
  | .resumeTake worker choice =>
      inferInstanceAs (Decidable ((q.leaveWorker worker).TakeOrderly choice))
  | .workerExit _ => inferInstanceAs (Decidable q.ExitOrderly)
  | .waitIdle _ => .isTrue trivial
  | .closeShop => .isTrue trivial

/-- The invariant of a run. The first number is the room, and the second the tasks, which only
the thread in its step knows of. -/
structure Inv (room tasks : Nat) (q : WorkQueue T) : Prop where
  accounts : q.Accounts
  low : 0 < q.m_low
  fewClients : q.clients.length < UInt32.size
  fewWorkers : q.m_worker_threads.length < UInt32.size
  clients_waiting : q.m_clients_waiting = UInt32.ofNat q.waitingClients
  workers_waiting : q.m_workers_waiting = UInt32.ofNat q.waitingWorkers
  workers_exited : q.m_workers_exited = UInt32.ofNat q.exitedWorkers
  room : 0 < q.asleepForRoom → q.m_high ≤ q.m_queue.length + q.wokenForRoom + room
  tasks : 0 < q.asleepWorkers → q.m_queue.length < q.m_low + q.wokenWorkers + tasks
  closedRoom : q.ok = false → 0 < q.asleepForRoom → q.m_high ≤ q.m_queue.length
  closedTasks : q.ok = false → 0 < q.asleepWorkers → q.m_queue.length < q.m_low

section Clients

variable {q : WorkQueue T} {client room tasks : Nat}

theorem toNat_counter {counter : UInt32} {count length : Nat} (same : counter = UInt32.ofNat count)
    (most : count ≤ length) (few : length < UInt32.size) : counter.toNat = count := by
  rw [same, UInt32.toNat_ofNat']
  exact Nat.mod_eq_of_lt (Nat.lt_of_le_of_lt most few)

/-- A queue which is ok is not closed. -/
theorem not_closed {P : Prop} (isok : q.ok = true) (closed : q.ok = false) : P := by
  rw [isok] at closed
  cases closed

theorem Inv.toNat_clients_waiting (inv : Inv room tasks q) :
    q.m_clients_waiting.toNat = q.waitingClients :=
  toNat_counter inv.clients_waiting List.countP_le_length inv.fewClients

theorem Inv.toNat_workers_waiting (inv : Inv room tasks q) :
    q.m_workers_waiting.toNat = q.waitingWorkers :=
  toNat_counter inv.workers_waiting List.countP_le_length inv.fewWorkers

theorem Inv.toNat_workers_exited (inv : Inv room tasks q) :
    q.m_workers_exited.toNat = q.exitedWorkers :=
  toNat_counter inv.workers_exited List.countP_le_length inv.fewWorkers

theorem Inv.correct (inv : Inv 0 0 q) : q.Correct :=
  ⟨inv.accounts, inv.toNat_clients_waiting, inv.toNat_workers_waiting, inv.room, inv.tasks⟩

theorem Inv.weaken {room' tasks' : Nat} (inv : Inv room tasks q) (moreRoom : room ≤ room')
    (moreTasks : tasks ≤ tasks') : Inv room' tasks' q :=
  { inv with
    room := fun asleep => Nat.le_trans (inv.room asleep) (Nat.add_le_add_left moreRoom _)
    tasks := fun asleep => Nat.lt_of_lt_of_le (inv.tasks asleep) (Nat.add_le_add_left moreTasks _) }

/-- A client begins to wait. One which waits for room has found none. -/
theorem Inv.waitClient (inv : Inv room tasks q) (there : q.clients[client]? = some (.out ()))
    (reason : ClientWait T)
    (settled : 0 < q.asleepForRoom ∨ reason.forRoom = true →
      q.m_high ≤ q.m_queue.length + q.wokenForRoom)
    (closed : reason.forRoom = true → q.ok = true) :
    Inv 0 tasks (q.waitClient client reason) := by
  obtain ⟨waits, asleep, woken⟩ := countP_sleep ClientWait.forRoom there reason
  change (q.waitClient client reason).waitingClients = q.waitingClients + 1 at waits
  change (q.waitClient client reason).asleepForRoom = q.asleepForRoom + reason.forRoom.toNat
    at asleep
  change (q.waitClient client reason).wokenForRoom = q.wokenForRoom at woken
  have sleeps : 0 < (q.waitClient client reason).asleepForRoom →
      0 < q.asleepForRoom ∨ reason.forRoom = true := by
    rw [asleep]
    cases reason.forRoom with
    | false => exact fun some => .inl some
    | true => exact fun _ => .inr rfl
  refine { inv with fewClients := ?_, clients_waiting := ?_, room := ?_, closedRoom := ?_ }
  · exact List.length_set.trans_lt inv.fewClients
  · rw [waits, UInt32.ofNat_add, ← inv.clients_waiting]
    rfl
  · intro some
    rw [woken]
    exact settled (sleeps some)
  · intro closing some
    change q.ok = false at closing
    rcases sleeps some with before | forRoom
    · exact inv.closedRoom closing before
    · exact not_closed (closed forRoom) closing

/-- A client comes out of its wait. The room it was woken for is its own. -/
theorem Inv.leaveClient {reason : ClientWait T} {woken : Bool} (inv : Inv 0 tasks q)
    (there : q.clients[client]? = some (.wait reason woken)) :
    Inv reason.forRoom.toNat tasks (q.leaveClient client) := by
  obtain ⟨waits, asleep, woken⟩ := countP_leave ClientWait.forRoom there ()
  change (q.leaveClient client).waitingClients + 1 = q.waitingClients at waits
  change (q.leaveClient client).asleepForRoom ≤ q.asleepForRoom at asleep
  change q.wokenForRoom ≤ (q.leaveClient client).wokenForRoom + reason.forRoom.toNat at woken
  refine { inv with fewClients := ?_, clients_waiting := ?_, room := ?_, closedRoom := ?_ }
  · exact List.length_set.trans_lt inv.fewClients
  · have counter := inv.clients_waiting
    rw [← waits, UInt32.ofNat_add] at counter
    change q.m_clients_waiting - 1 = _
    rw [counter]
    exact UInt32.add_sub_cancel _ _
  · intro some
    have before := inv.room (Nat.lt_of_lt_of_le some asleep)
    change q.m_high ≤ q.m_queue.length + (q.leaveClient client).wokenForRoom + reason.forRoom.toNat
    omega
  · intro closing some
    exact inv.closedRoom closing (Nat.lt_of_lt_of_le some asleep)

/-- All the clients are woken. -/
theorem Inv.notifyClients (inv : Inv room tasks q) : Inv 0 tasks q.notifyClients := by
  have waits : q.notifyClients.waitingClients = q.waitingClients :=
    countP_waits_notifyAll q.clients
  have asleep : q.notifyClients.asleepForRoom = 0 := countP_asleep_notifyAll _ q.clients
  refine { inv with fewClients := ?_, clients_waiting := ?_, room := ?_, closedRoom := ?_ }
  · exact (List.length_map Waiter.wake).trans_lt inv.fewClients
  · rw [waits]
    exact inv.clients_waiting
  · intro some
    rw [asleep] at some
    cases some
  · intro _ some
    rw [asleep] at some
    cases some

/-- The room which a `take` has made is given to a client which waits for it. -/
theorem Inv.notifyClient {q' : WorkQueue T} {choice : Nat} (inv : Inv 1 tasks q)
    (notified : q.notifyClient choice = some q')
    (given : q.asleepForRoom = 0 ∨
      q.clients[choice]?.any (Waiter.asleep ClientWait.forRoom) = true ∨
      q.m_high ≤ q.m_queue.length + q.wokenForRoom) (isok : q.ok = true) :
    Inv 0 tasks q' ∧ q'.ok = true := by
  unfold WorkQueue.notifyClient at notified
  split at notified
  · rw [Option.map_eq_some_iff] at notified
    obtain ⟨clients, chosen, rfl⟩ := notified
    refine ⟨?_, isok⟩
    rcases notifyOne_cases chosen with ⟨rfl, nobody⟩ | ⟨reason, there, rfl⟩
    · refine { inv with room := ?_ }
      intro some
      exact absurd (nobody ClientWait.forRoom) (Nat.ne_of_gt some)
    · obtain ⟨waits, asleep, woken⟩ := countP_wake ClientWait.forRoom there
      change _ = q.waitingClients at waits
      change _ = q.asleepForRoom at asleep
      change _ = q.wokenForRoom + reason.forRoom.toNat at woken
      refine { inv with
        fewClients := ?_, clients_waiting := ?_, room := ?_, closedRoom := not_closed isok }
      · exact List.length_set.trans_lt inv.fewClients
      · change q.m_clients_waiting = UInt32.ofNat (List.countP _ _)
        rw [waits]
        exact inv.clients_waiting
      · intro some
        change 0 < (q.clients.set choice _).countP (Waiter.asleep ClientWait.forRoom) at some
        change q.m_high ≤ q.m_queue.length +
          (q.clients.set choice _).countP (Waiter.woken ClientWait.forRoom)
        have before := inv.room (by omega)
        rw [woken]
        rcases given with nobody | forRoom | promised
        · omega
        · rw [there] at forRoom
          have kind : reason.forRoom = true := by simpa using forRoom
          rw [kind, Bool.toNat_true]
          omega
        · omega
  · rename_i uncounted
    cases notified
    have nobody : q.waitingClients = 0 := by
      rw [← inv.toNat_clients_waiting]
      simpa [UInt32.lt_iff_toNat_lt] using uncounted
    have asleep := countP_asleep_le ClientWait.forRoom q.clients
    refine ⟨{ inv with room := ?_ }, isok⟩
    intro some
    exact absurd (Nat.lt_of_lt_of_le some asleep) (Nat.not_lt_of_le (Nat.le_of_eq nobody))

end Clients

section Workers

variable {q : WorkQueue T} {worker room tasks : Nat} {place : WorkerPlace}

theorem ok_of_isEmpty {threads : List Worker}
    (same : threads.isEmpty = q.m_worker_threads.isEmpty) :
    ok { q with m_worker_threads := threads } = q.ok := by
  unfold ok
  rw [same]

theorem isEmpty_set (threads : List Worker) (i : Nat) (thread : Worker) :
    (threads.set i thread).isEmpty = threads.isEmpty := by
  cases threads with
  | nil => rfl
  | cons first rest =>
      cases i with
      | zero => rfl
      | succ i => rfl

theorem isEmpty_notifyAll (threads : List Worker) :
    (notifyAll threads).isEmpty = threads.isEmpty := by
  cases threads with
  | nil => rfl
  | cons first rest => rfl

theorem exited_notifyAll (threads : List Worker) :
    (notifyAll threads).countP (· == .out .exited) = threads.countP (· == .out .exited) := by
  unfold notifyAll
  rw [List.countP_map]
  congr 1
  funext thread
  cases thread with
  | out place => rfl
  | wait reason woken => rfl

/-- No worker is through which was not, and back. -/
theorem exited_set {threads : List Worker} {before after : Worker}
    (there : threads[worker]? = some before) (inside : (before == .out .exited) = false)
    (stays : (after == .out .exited) = false) :
    (threads.set worker after).countP (· == .out .exited) = threads.countP (· == .out .exited) := by
  have moved := countP_set_add there after (· == .out .exited)
  rwa [inside, stays] at moved

/-- A worker begins to wait, for want of tasks. -/
theorem Inv.waitWorker (inv : Inv room tasks q)
    (there : q.m_worker_threads[worker]? = some (.out .away))
    (few : q.m_queue.length < q.m_low) : Inv room 0 (q.waitWorker worker) := by
  obtain ⟨waits, asleep, woken⟩ := countP_sleep (fun _ => true) there ()
  have exited : (q.waitWorker worker).exitedWorkers = q.exitedWorkers := exited_set there rfl rfl
  have same : (q.waitWorker worker).ok = q.ok := ok_of_isEmpty (isEmpty_set _ _ _)
  change (q.waitWorker worker).waitingWorkers = q.waitingWorkers + 1 at waits
  refine { inv with
    fewWorkers := ?_, workers_waiting := ?_, workers_exited := ?_, tasks := ?_, closedRoom := ?_,
    closedTasks := fun _ _ => few }
  · exact List.length_set.trans_lt inv.fewWorkers
  · rw [waits, UInt32.ofNat_add, ← inv.workers_waiting]
    rfl
  · rw [exited]
    exact inv.workers_exited
  · intro _
    exact Nat.lt_of_lt_of_le few (Nat.le_add_right _ _)
  · rw [same]
    exact inv.closedRoom

/-- A worker comes out of its wait. The task it was woken for is its own. -/
theorem Inv.leaveWorker {woken : Bool} (inv : Inv room 0 q)
    (there : q.m_worker_threads[worker]? = some (.wait () woken)) :
    Inv room 1 (q.leaveWorker worker) := by
  obtain ⟨waits, asleep, woken⟩ := countP_leave (fun _ => true) there .away
  have exited : (q.leaveWorker worker).exitedWorkers = q.exitedWorkers := exited_set there rfl rfl
  have same : (q.leaveWorker worker).ok = q.ok := ok_of_isEmpty (isEmpty_set _ _ _)
  change (q.leaveWorker worker).waitingWorkers + 1 = q.waitingWorkers at waits
  change (q.leaveWorker worker).asleepWorkers ≤ q.asleepWorkers at asleep
  change q.wokenWorkers ≤ (q.leaveWorker worker).wokenWorkers + 1 at woken
  refine { inv with
    fewWorkers := ?_, workers_waiting := ?_, workers_exited := ?_, tasks := ?_, closedRoom := ?_,
    closedTasks := ?_ }
  · exact List.length_set.trans_lt inv.fewWorkers
  · have counter := inv.workers_waiting
    rw [← waits, UInt32.ofNat_add] at counter
    change q.m_workers_waiting - 1 = _
    rw [counter]
    exact UInt32.add_sub_cancel _ _
  · rw [exited]
    exact inv.workers_exited
  · intro some
    have before := inv.tasks (Nat.lt_of_lt_of_le some asleep)
    change q.m_queue.length < q.m_low + (q.leaveWorker worker).wokenWorkers + 1
    omega
  · rw [same]
    exact inv.closedRoom
  · intro closing some
    rw [same] at closing
    exact inv.closedTasks closing (Nat.lt_of_lt_of_le some asleep)

/-- A worker which is not in `take` goes on, or away. -/
theorem Inv.setWorker (inv : Inv room tasks q)
    (there : q.m_worker_threads[worker]? = some (.out place)) (inside : place ≠ .exited)
    {place' : WorkerPlace} (stays : place' ≠ .exited) :
    Inv room tasks (q.setWorker worker place') := by
  obtain ⟨waits, asleep, woken⟩ := countP_move (fun _ => true) there place'
  have exited : (q.setWorker worker place').exitedWorkers = q.exitedWorkers :=
    exited_set there (by simpa using inside) (by simpa using stays)
  have same : (q.setWorker worker place').ok = q.ok := ok_of_isEmpty (isEmpty_set _ _ _)
  change (q.setWorker worker place').waitingWorkers = q.waitingWorkers at waits
  change (q.setWorker worker place').asleepWorkers = q.asleepWorkers at asleep
  change (q.setWorker worker place').wokenWorkers = q.wokenWorkers at woken
  refine { inv with
    fewWorkers := ?_, workers_waiting := ?_, workers_exited := ?_, tasks := ?_, closedRoom := ?_,
    closedTasks := ?_ }
  · exact List.length_set.trans_lt inv.fewWorkers
  · rw [waits]
    exact inv.workers_waiting
  · rw [exited]
    exact inv.workers_exited
  · rw [asleep, woken]
    exact inv.tasks
  · rw [same]
    exact inv.closedRoom
  · rw [same, asleep]
    exact inv.closedTasks

/-- All the workers are woken, when the termination begins or goes on. -/
theorem Inv.notifyWorkers (inv : Inv room tasks q) {m_ok : Bool}
    (closing : m_ok = q.m_ok ∨ q.asleepForRoom = 0 ∨ q.m_high ≤ q.m_queue.length) :
    Inv room 0 (notifyWorkers { q with m_ok := m_ok }) := by
  have waits := countP_waits_notifyAll q.m_worker_threads
  have exited := exited_notifyAll q.m_worker_threads
  have asleep := countP_asleep_notifyAll (fun _ => true) q.m_worker_threads
  have nobody : (WorkQueue.notifyWorkers { q with m_ok := m_ok }).asleepWorkers = 0 := asleep
  refine { inv with
    fewWorkers := ?_, workers_waiting := ?_, workers_exited := ?_, tasks := ?_, closedRoom := ?_,
    closedTasks := ?_ }
  · exact (List.length_map Waiter.wake).trans_lt inv.fewWorkers
  · change _ = UInt32.ofNat ((notifyAll q.m_worker_threads).countP Waiter.waits)
    rw [waits]
    exact inv.workers_waiting
  · change _ = UInt32.ofNat ((notifyAll q.m_worker_threads).countP (· == .out .exited))
    rw [exited]
    exact inv.workers_exited
  · rw [nobody]
    exact fun some => absurd some (Nat.lt_irrefl 0)
  · intro closed some
    rcases closing with rfl | none | full
    · have same : (WorkQueue.notifyWorkers q).ok = q.ok := ok_of_isEmpty (isEmpty_notifyAll _)
      exact inv.closedRoom (same.symm.trans closed) some
    · exact absurd none (Nat.ne_of_gt some)
    · exact full
  · rw [nobody]
    exact fun _ some => absurd some (Nat.lt_irrefl 0)

/-- A new task is given to a worker which sleeps. -/
theorem Inv.notifyWorker {q' : WorkQueue T} {choice : Nat} (inv : Inv room 1 q)
    (notified : q.notifyWorker choice = some q') (isok : q.ok = true) : Inv room 0 q' := by
  unfold WorkQueue.notifyWorker at notified
  split at notified
  · rw [Option.map_eq_some_iff] at notified
    obtain ⟨threads, chosen, rfl⟩ := notified
    rcases notifyOne_cases chosen with ⟨rfl, nobody⟩ | ⟨⟨⟩, there, rfl⟩
    · refine { inv with tasks := ?_ }
      intro some
      exact absurd (nobody fun _ => true) (Nat.ne_of_gt some)
    · obtain ⟨waits, asleep, woken⟩ := countP_wake (fun _ => true) there
      change _ = q.waitingWorkers at waits
      change _ = q.asleepWorkers at asleep
      change _ = q.wokenWorkers + 1 at woken
      have same := ok_of_isEmpty (q := q)
        (isEmpty_set q.m_worker_threads choice (.wait () true))
      refine { inv with
        fewWorkers := ?_, workers_waiting := ?_, workers_exited := ?_, tasks := ?_,
        closedRoom := ?_, closedTasks := not_closed (same.trans isok) }
      · exact List.length_set.trans_lt inv.fewWorkers
      · change q.m_workers_waiting = UInt32.ofNat (List.countP _ _)
        rw [waits]
        exact inv.workers_waiting
      · change q.m_workers_exited = UInt32.ofNat (List.countP _ _)
        rw [exited_set there rfl rfl]
        exact inv.workers_exited
      · intro some
        change q.m_queue.length < q.m_low +
          (q.m_worker_threads.set choice _).countP (Waiter.woken fun _ => true)
        have before := inv.tasks (asleep ▸ Nat.succ_pos _)
        rw [woken]
        omega
      · rw [same]
        exact inv.closedRoom
  · rename_i uncounted
    cases notified
    have nobody : q.waitingWorkers = 0 := by
      rw [← inv.toNat_workers_waiting]
      simpa [UInt32.lt_iff_toNat_lt] using uncounted
    have asleep := countP_asleep_le (fun _ => true) q.m_worker_threads
    refine { inv with tasks := ?_ }
    intro some
    exact absurd (Nat.lt_of_lt_of_le some asleep) (Nat.not_lt_of_le (Nat.le_of_eq nobody))

end Workers

section Turns

variable {q q' : WorkQueue T} {client worker choice : Nat} {t : T} {flushprevious : Bool}
  {out : Returned T}

theorem Accounts.push (accounts : q.Accounts) (t : T) (flushprevious : Bool) :
    (q.push t flushprevious).Accounts := by
  obtain ⟨fates, puts, taken, flushed⟩ := accounts
  cases flushprevious with
  | false =>
      refine ⟨fates, ?_, taken, ?_⟩
      · change q.puts ++ [t] = _ ++ (q.m_queue ++ [t])
        rw [puts, List.append_assoc]
      · exact (List.append_nil _).trans flushed
  | true =>
      refine ⟨fates ++ q.m_queue.map fun t => (t, false), ?_, ?_, ?_⟩
      · change q.puts ++ [t] = _ ++ ([] ++ [t])
        rw [puts, List.map_append, List.map_map]
        simp [Function.comp_def]
      · change q.taken = _
        rw [taken, List.filter_append, List.map_append]
        simp
      · change q.flushed ++ q.m_queue = _
        rw [flushed, List.filter_append, List.map_append]
        simp [List.filter_map, Function.comp_def]

theorem Accounts.pop {rest : List T} (accounts : q.Accounts) (queued : q.m_queue = t :: rest) :
    Accounts { q with m_queue := rest, taken := q.taken ++ [t] } := by
  obtain ⟨fates, puts, taken, flushed⟩ := accounts
  refine ⟨fates ++ [(t, true)], ?_, ?_, ?_⟩
  · change q.puts = _ ++ rest
    rw [puts, queued, List.map_append, List.append_assoc]
    rfl
  · change q.taken ++ [t] = _
    rw [taken, List.filter_append, List.map_append]
    rfl
  · change q.flushed = _
    rw [flushed, List.filter_append, List.map_append]
    exact (List.append_nil _).symm

theorem length_push (q : WorkQueue T) (t : T) (flushprevious : Bool) :
    (q.push t flushprevious).m_queue.length =
      (if flushprevious then 0 else q.m_queue.length) + 1 := by
  cases flushprevious with
  | false => exact List.length_append
  | true => rfl

theorem lt_high_of_not_full (room : q.full = false) (limited : 0 < q.m_high) :
    q.m_queue.length < q.m_high := by
  simpa [full, limited] using room

/-- The new task takes the room of its client. -/
theorem Inv.push (inv : Inv 1 0 q) (isok : q.ok = true)
    (orderly : flushprevious = true → q.asleepForRoom = 0 ∨ q.m_high ≤ 1 + q.wokenForRoom) :
    Inv 0 1 (q.push t flushprevious) := by
  have length := length_push q t flushprevious
  refine { inv with
    accounts := inv.accounts.push t flushprevious, room := ?_, tasks := ?_,
    closedRoom := not_closed isok, closedTasks := not_closed isok }
  · intro some
    change 0 < q.asleepForRoom at some
    change q.m_high ≤ (q.push t flushprevious).m_queue.length + q.wokenForRoom
    have before := inv.room some
    rw [length]
    cases flushprevious with
    | false =>
        rw [if_neg Bool.false_ne_true]
        omega
    | true =>
        rcases orderly rfl with nobody | promised
        · omega
        · rw [if_pos rfl]
          omega
  · intro some
    change 0 < q.asleepWorkers at some
    change (q.push t flushprevious).m_queue.length < q.m_low + q.wokenWorkers + 1
    have before := inv.tasks some
    have low := inv.low
    rw [length]
    split <;> omega

theorem Inv.putTurn (inv : Inv 1 0 q) (there : q.clients[client]? = some (.out ()))
    (orderly : q.FlushOrderly flushprevious)
    (turn : q.putTurn client t flushprevious choice = some (q', out)) :
    Inv 0 0 q' ∧ q'.Truthful out := by
  unfold WorkQueue.putTurn at turn
  split at turn
  · rename_i closed
    cases turn
    refine ⟨{ inv with room := ?_ }, trivial⟩
    intro some
    have full := inv.closedRoom (by simpa using closed) some
    change q.m_high ≤ q.m_queue.length + q.wokenForRoom
    omega
  · rename_i isok
    rw [Bool.not_eq_true', Bool.not_eq_false] at isok
    split at turn
    · rename_i full
      cases turn
      rw [WorkQueue.full, Bool.and_eq_true, decide_eq_true_eq, decide_eq_true_eq] at full
      exact ⟨inv.waitClient there _ (fun _ => Nat.le_add_right_of_le full.2) fun _ => isok, trivial⟩
    · rename_i room
      rw [Option.map_eq_some_iff] at turn
      obtain ⟨next, notified, same⟩ := turn
      cases same
      have flushes := fun flush => orderly flush isok (Bool.eq_false_iff.mpr room)
      exact ⟨(inv.push isok flushes).notifyWorker notified isok, trivial⟩

theorem Inv.put (inv : Inv 0 0 q) (there : q.clients[client]? = some (.out ()))
    (orderly : q.m_openforbusiness = true → q.FlushOrderly flushprevious)
    (turn : q.put client t flushprevious choice = some (q', out)) :
    Inv 0 0 q' ∧ q'.Truthful out := by
  unfold WorkQueue.put at turn
  split at turn
  · cases turn
    exact ⟨inv, trivial⟩
  · rename_i accepts
    rw [Bool.or_eq_true, not_or, Bool.not_eq_true', Bool.not_eq_true', Bool.not_eq_false,
      Bool.not_eq_false] at accepts
    exact (inv.weaken (Nat.zero_le 1) (Nat.le_refl 0)).putTurn there (orderly accepts.2) turn

/-- `waitIdle` is not through while a task is queued or a worker is not in `take`. -/
theorem Inv.truthful_waitIdle (inv : Inv 0 0 q) (idle : q.busy = false) :
    q.Truthful (.waitIdle q.ok) := by
  cases isok : q.ok with
  | false => trivial
  | true =>
      rw [ok, Bool.and_eq_true, Bool.and_eq_true, beq_iff_eq] at isok
      obtain ⟨⟨-, exited⟩, threads⟩ := isok
      rw [busy, exited, Bool.or_eq_false_iff, decide_eq_false_iff_not, UInt32.add_zero,
        inv.toNat_workers_waiting, Nat.not_lt] at idle
      have some : 0 < q.m_worker_threads.length := by
        cases held : q.m_worker_threads with
        | nil =>
            rw [held] at threads
            cases threads
        | cons first rest => exact Nat.succ_pos _
      constructor
      · have empty := idle.1
        simpa [some] using empty
      · have all : q.m_worker_threads.countP Waiter.waits = q.m_worker_threads.length :=
          Nat.le_antisymm List.countP_le_length idle.2
        exact List.countP_eq_length.mp all

theorem Inv.idleTurn (inv : Inv 0 0 q) (there : q.clients[client]? = some (.out ())) :
    Inv 0 0 (q.idleTurn client).1 ∧
      (q.idleTurn client).1.Truthful (q.idleTurn client).2 := by
  unfold WorkQueue.idleTurn
  split
  · refine ⟨inv.waitClient there _ ?_ (fun forRoom => nomatch forRoom), trivial⟩
    rintro (some | forRoom)
    · exact inv.room some
    · cases forRoom
  · rename_i idle
    exact ⟨inv, inv.truthful_waitIdle (Bool.eq_false_iff.mpr idle)⟩

theorem Inv.reset (inv : Inv 0 0 q) (nobody : q.waitingClients = 0) : Inv 0 0 q.reset := by
  have none : q.asleepForRoom = 0 :=
    Nat.le_zero.mp (nobody ▸ countP_asleep_le ClientWait.forRoom q.clients)
  refine { inv with
    fewWorkers := Nat.succ_pos _, clients_waiting := ?_, workers_waiting := rfl,
    workers_exited := rfl, room := inv.room, tasks := ?_, closedRoom := ?_, closedTasks := ?_ }
  · change 0 = UInt32.ofNat q.waitingClients
    rw [nobody]
    rfl
  · exact fun some => absurd some (Nat.lt_irrefl 0)
  · exact fun _ some => absurd none (Nat.ne_of_gt some)
  · exact fun _ some => absurd some (Nat.lt_irrefl 0)

theorem Inv.terminateTurn {m_ok : Bool} (inv : Inv 0 0 q)
    (there : q.clients[client]? = some (.out ()))
    (closing : m_ok = q.m_ok ∨ q.asleepForRoom = 0 ∨ q.m_high ≤ q.m_queue.length)
    (orderly : q.ResetOrderly)
    (turn : WorkQueue.terminateTurn { q with m_ok := m_ok } client = some (q', out)) :
    Inv 0 0 q' ∧ q'.Truthful out := by
  unfold WorkQueue.terminateTurn at turn
  split at turn
  · cases turn
    have woken := inv.notifyWorkers closing
    refine ⟨woken.waitClient there _ ?_ (fun forRoom => nomatch forRoom), trivial⟩
    rintro (some | forRoom)
    · exact woken.room some
    · cases forRoom
  · rename_i last
    split at turn
    · cases turn
      exact ⟨inv.reset (orderly (Nat.le_of_not_lt last)), trivial⟩
    · cases turn

theorem Inv.setTerminateAndWait (inv : Inv 0 0 q) (there : q.clients[client]? = some (.out ()))
    (orderly : q.TerminateOrderly)
    (turn : q.setTerminateAndWait client = some (q', out)) :
    Inv 0 0 q' ∧ q'.Truthful out := by
  unfold WorkQueue.setTerminateAndWait at turn
  split at turn
  · cases turn
    exact ⟨inv, trivial⟩
  · rename_i threads
    rcases orderly with none | ⟨closing, last⟩
    · exact absurd (List.isEmpty_iff.mpr none) threads
    · exact inv.terminateTurn there (.inr closing) last turn

theorem Inv.takeTurn (inv : Inv 0 1 q) (there : q.m_worker_threads[worker]? = some (.out .away))
    (orderly : q.TakeOrderly choice) (turn : q.takeTurn worker choice = some (q', out)) :
    Inv 0 0 q' ∧ q'.Truthful out := by
  unfold WorkQueue.takeTurn at turn
  split at turn
  · rename_i closed
    cases turn
    have settled : Inv 0 0 q := by
      refine { inv with tasks := ?_ }
      intro some
      have few := inv.closedTasks (by simpa using closed) some
      change q.m_queue.length < q.m_low + q.wokenWorkers
      omega
    exact ⟨settled.setWorker there (by decide) (by decide), trivial⟩
  · rename_i isok
    rw [Bool.not_eq_true', Bool.not_eq_false] at isok
    split at turn
    · rename_i few
      cases turn
      refine ⟨?_, trivial⟩
      split
      · exact inv.notifyClients.waitWorker there few
      · exact inv.waitWorker there few
    · rename_i enough
      split at turn
      · rename_i empty
        rw [empty] at enough
        exact absurd inv.low enough
      · rename_i t rest queued
        rw [Option.map_eq_some_iff] at turn
        obtain ⟨next, notified, same⟩ := turn
        cases same
        have length : q.m_queue.length = rest.length + 1 := by rw [queued]; rfl
        have popped : Inv 1 0 { q with m_queue := rest, taken := q.taken ++ [t] } := by
          refine { inv with
            accounts := inv.accounts.pop queued, room := ?_, tasks := ?_,
            closedRoom := not_closed isok, closedTasks := not_closed isok }
          · intro some
            have before := inv.room some
            change q.m_high ≤ rest.length + q.wokenForRoom + 1
            omega
          · intro some
            have before := inv.tasks some
            change rest.length < q.m_low + q.wokenWorkers
            omega
        have given := orderly isok (Nat.le_of_not_lt enough)
        rw [length, Nat.add_sub_cancel] at given
        exact ⟨(popped.notifyClient notified given isok).1, trivial⟩

theorem Inv.workerExit {place : WorkerPlace} (inv : Inv 0 0 q)
    (there : q.m_worker_threads[worker]? = some (.out place)) (inside : place ≠ .exited)
    (orderly : q.ExitOrderly) : Inv 0 0 (q.workerExit worker) := by
  obtain ⟨waits, asleep, woken⟩ := countP_move (fun _ => true) there .exited
  have exited : (q.m_worker_threads.set worker (.out .exited)).countP (· == .out .exited) =
      q.exitedWorkers + 1 := by
    have moved := countP_set_add there (.out .exited) (· == .out .exited)
    have before : ((Waiter.out place : Worker) == .out .exited) = false := by simpa using inside
    rwa [before] at moved
  have free : (q.workerExit worker).asleepForRoom = 0 :=
    countP_asleep_notifyAll ClientWait.forRoom q.clients
  have few : 0 < (q.workerExit worker).asleepWorkers → q.m_queue.length < q.m_low := by
    intro some
    change 0 < (q.m_worker_threads.set worker _).countP (Waiter.asleep fun _ => true) at some
    rw [asleep] at some
    rcases orderly with nobody | few
    · exact absurd nobody (Nat.ne_of_gt some)
    · exact few
  have notified := inv.notifyClients
  refine { notified with
    fewWorkers := ?_, workers_waiting := ?_, workers_exited := ?_, room := ?_, tasks := ?_,
    closedRoom := ?_, closedTasks := fun _ => few }
  · exact List.length_set.trans_lt inv.fewWorkers
  · change q.m_workers_waiting = UInt32.ofNat (List.countP _ (q.m_worker_threads.set worker _))
    rw [waits]
    exact inv.workers_waiting
  · change q.m_workers_exited + 1 = UInt32.ofNat (List.countP _ (q.m_worker_threads.set worker _))
    rw [exited, UInt32.ofNat_add, inv.workers_exited]
    rfl
  · rw [free]
    exact fun some => absurd some (Nat.lt_irrefl 0)
  · intro some
    exact Nat.lt_of_lt_of_le (few some) (Nat.le_add_right _ _)
  · rw [free]
    exact fun _ some => absurd some (Nat.lt_irrefl 0)

theorem Inv.start (inv : Inv 0 0 q) (nworkers : Nat)
    (few : q.m_worker_threads.length + nworkers < UInt32.size) :
    Inv 0 0 { q with
      m_worker_threads := q.m_worker_threads ++ List.replicate nworkers (.out .away) } := by
  have same : ∀ p : Worker → Bool, p (Waiter.out WorkerPlace.away) = false →
      (q.m_worker_threads ++ List.replicate nworkers (Waiter.out WorkerPlace.away)).countP p =
        q.m_worker_threads.countP p := by
    intro p outside
    rw [List.countP_append, List.countP_replicate, outside]
    rfl
  have waits := same Waiter.waits rfl
  have asleep := same (Waiter.asleep fun _ => true) rfl
  have woken := same (Waiter.woken fun _ => true) rfl
  have exited := same (fun worker : Worker => worker == .out .exited) rfl
  have closes : ok { q with
      m_worker_threads := q.m_worker_threads ++ List.replicate nworkers (.out .away) } = false →
        q.ok = false := by
    intro closed
    unfold ok at closed ⊢
    cases held : q.m_worker_threads with
    | nil => exact Bool.and_false _
    | cons first rest =>
        rw [held] at closed
        exact closed
  refine { inv with
    fewWorkers := ?_, workers_waiting := ?_, workers_exited := ?_, tasks := ?_, closedRoom := ?_,
    closedTasks := ?_ }
  · rwa [List.length_append, List.length_replicate]
  · change _ = UInt32.ofNat (List.countP _ _)
    rw [waits]
    exact inv.workers_waiting
  · change _ = UInt32.ofNat (List.countP _ _)
    rw [exited]
    exact inv.workers_exited
  · unfold asleepWorkers wokenWorkers
    rw [asleep, woken]
    exact inv.tasks
  · exact fun closed => inv.closedRoom (closes closed)
  · intro closed
    unfold asleepWorkers
    rw [asleep]
    exact inv.closedTasks (closes closed)

end Turns

section Runs

variable {q q' : WorkQueue T} {out : Returned T}

theorem Inv.resume {client choice : Nat} (inv : Inv 0 0 q)
    (orderly : (q.leaveClient client).ResumeOrderly q.clients[client]?)
    (turn : q.resume client choice = some (q', out)) : Inv 0 0 q' ∧ q'.Truthful out := by
  unfold WorkQueue.resume at turn
  have left : ∀ {thread}, q.clients[client]? = some thread →
      (q.leaveClient client).clients[client]? = some (.out ()) := by
    intro thread there
    exact List.getElem?_set_self (List.getElem?_eq_some_iff.mp there).1
  split at turn
  · rename_i t flushprevious woken there
    rw [there] at orderly
    exact (inv.leaveClient there).putTurn (left there) orderly turn
  · rename_i woken there
    have settled := (inv.leaveClient there).idleTurn (left there)
    rwa [Option.some.inj turn] at settled
  · rename_i woken there
    rw [there] at orderly
    exact (inv.leaveClient there).terminateTurn (left there) (.inl rfl) orderly turn
  · cases turn

/-- What one orderly step preserves. -/
theorem Inv.step (action : Action T) (inv : Inv 0 0 q) (orderly : q.Orderly action)
    (turn : q.step action = some (q', out)) : Inv 0 0 q' ∧ q'.Truthful out := by
  have calls : ∀ {client result}, q.call client result = some (q', out) →
      q.clients[client]? = some (.out ()) ∧ result = some (q', out) := by
    intro client result called
    unfold call at called
    split at called
    · rename_i there
      exact ⟨there, called⟩
    · cases called
  cases action with
  | start nworkers =>
      cases turn
      exact ⟨inv.start nworkers orderly, trivial⟩
  | closeShop =>
      cases turn
      exact ⟨{ inv with }, trivial⟩
  | put client t flushprevious choice =>
      obtain ⟨there, turn⟩ := calls turn
      exact inv.put there orderly turn
  | waitIdle client =>
      obtain ⟨there, turn⟩ := calls turn
      have settled := inv.idleTurn there
      rwa [Option.some.inj turn] at settled
  | setTerminateAndWait client =>
      obtain ⟨there, turn⟩ := calls turn
      exact inv.setTerminateAndWait there orderly turn
  | resume client choice => exact inv.resume orderly turn
  | take worker choice =>
      rw [WorkQueue.step] at turn
      split at turn
      · rename_i there
        exact (inv.weaken (Nat.le_refl 0) (Nat.zero_le 1)).takeTurn there orderly turn
      · cases turn
  | resumeTake worker choice =>
      rw [WorkQueue.step] at turn
      split at turn
      · rename_i there
        have left : (q.leaveWorker worker).m_worker_threads[worker]? = some (.out .away) :=
          List.getElem?_set_self (List.getElem?_eq_some_iff.mp there).1
        exact (inv.leaveWorker there).takeTurn left orderly turn
      · cases turn
  | workerExit worker =>
      rw [WorkQueue.step] at turn
      split at turn
      · rename_i there
        cases turn
        exact ⟨inv.workerExit there (by decide) orderly, trivial⟩
      · rename_i there
        cases turn
        exact ⟨inv.workerExit there (by decide) orderly, trivial⟩
      · cases turn

theorem inv_init (hi lo nclients : Nat) (low : 0 < lo) (few : nclients < UInt32.size) :
    Inv 0 0 (init hi lo nclients : WorkQueue T) := by
  have nobody : ∀ p : Client T → Bool, p (.out ()) = false →
      (init hi lo nclients : WorkQueue T).clients.countP p = 0 := by
    intro p outside
    change List.countP p (List.replicate nclients _) = 0
    rw [List.countP_replicate, outside]
    rfl
  have waits := nobody Waiter.waits rfl
  have asleep := nobody (Waiter.asleep ClientWait.forRoom) rfl
  constructor
  case accounts => exact ⟨[], rfl, rfl, rfl⟩
  case low => exact low
  case fewClients => exact List.length_replicate.trans_lt few
  case fewWorkers => exact Nat.succ_pos _
  case clients_waiting =>
    change 0 = UInt32.ofNat (List.countP _ _)
    rw [waits]
    rfl
  case workers_waiting => rfl
  case workers_exited => rfl
  case room => exact fun some => absurd asleep (Nat.ne_of_gt some)
  case tasks => exact fun some => absurd some (Nat.lt_irrefl 0)
  case closedRoom => exact fun _ some => absurd asleep (Nat.ne_of_gt some)
  case closedTasks => exact fun _ some => absurd some (Nat.lt_irrefl 0)

/-- In a run whose steps are all orderly, of fewer threads than a counter can count, each step
leads to a correct state. -/
theorem sound_of_orderly (hi lo nclients : Nat) (low : 0 < lo) (few : nclients < UInt32.size)
    (actions : List (Action T))
    (orderly : Machine.Along (fun q action _ _ => q.Orderly action) step (init hi lo nclients)
      actions) :
    Machine.Along Sound step (init hi lo nclients) actions := by
  have preserve : ∀ (q : WorkQueue T) action q' out, Inv 0 0 q → q.Orderly action →
      q.step action = some (q', out) → Inv 0 0 q' ∧ Sound q action q' out := by
    intro q action q' out inv allowed turn
    have settled := inv.step action allowed turn
    exact ⟨settled.1, settled.1.correct, settled.2⟩
  exact Machine.along_of_invariant preserve _ _ (inv_init hi lo nclients low few) orderly

/-- A worker sleeps, takes three tasks of which one is the last of a flush, sleeps again while
the client waits for that, and is terminated. Then another one is started. -/
def orderlyRun : List (Action Nat) :=
  [.start 1, .take 0 0, .put 0 1 false 0, .resumeTake 0 0, .put 0 2 false 0, .put 0 3 true 0,
    .waitIdle 0, .take 0 0, .take 0 0, .resume 0 0, .put 0 4 false 0, .resumeTake 0 0, .take 0 0,
    .waitIdle 0, .setTerminateAndWait 0, .resumeTake 0 0, .workerExit 0, .resume 0 0, .start 1,
    .take 0 0]

theorem orderlyRun_sound :
    Machine.Along Sound step (init 2 1 1) orderlyRun ∧
      ((Machine.run step (init 2 1 1) orderlyRun).map fun result => result.1.taken) =
        some [1, 3, 4] :=
  ⟨sound_of_orderly 2 1 1 (by decide) (by decide) orderlyRun (by decide), by decide⟩

/-- The part of `Correct` which is about the counters and the wake-ups. -/
def Balanced (q : WorkQueue T) : Prop :=
  q.m_clients_waiting.toNat = q.waitingClients ∧ q.m_workers_waiting.toNat = q.waitingWorkers ∧
    (0 < q.asleepForRoom → q.m_high ≤ q.m_queue.length + q.wokenForRoom) ∧
    (0 < q.asleepWorkers → q.m_queue.length < q.m_low + q.wokenWorkers)

instance (q : WorkQueue T) : Decidable q.Balanced :=
  inferInstanceAs (Decidable (_ = _ ∧ _ = _ ∧ (_ → _) ∧ (_ → _)))

theorem balanced_of_sound {actions : List (Action T)} {q : WorkQueue T}
    (sound : Machine.Along Sound step q actions) :
    Machine.Along (fun _ _ q _ => q.Balanced) step q actions := by
  have each : ∀ (q : WorkQueue T) action q' out, True → Sound q action q' out →
      q.step action = some (q', out) → True ∧ q'.Balanced := by
    intro q action q' out _ sound _
    have correct := sound.correct
    exact ⟨trivial, correct.clients_waiting, correct.workers_waiting, correct.room, correct.tasks⟩
  exact Machine.along_of_invariant each _ _ trivial sound

/-- Two clients wait for room. The one which is woken flushes the queue. -/
def flushRun : List (Action Nat) :=
  [.start 1, .put 0 1 false 0, .put 0 2 false 0, .put 0 3 true 0, .put 1 4 false 0, .take 0 0,
    .resume 0 0]

/-- The wake-up of `take` goes to a client in `waitIdle`. -/
def idleRun : List (Action Nat) :=
  [.start 1, .waitIdle 0, .put 1 1 false 0, .put 1 2 false 0, .take 0 0]

/-- A worker which was woken for a task goes because another one has given up. -/
def exitRun : List (Action Nat) :=
  [.start 3, .take 0 0, .take 1 0, .put 0 1 false 0, .workerExit 2, .resumeTake 0 0]

/-- A client which was woken for room goes because of the termination. -/
def terminateRun : List (Action Nat) :=
  [.start 1, .put 0 1 false 0, .put 0 2 false 0, .put 0 3 false 0, .put 1 4 false 0, .take 0 0,
    .setTerminateAndWait 2, .resume 0 0]

/-- The counters are reset while a client is on its way out of its wait. -/
def resetRun : List (Action Nat) :=
  [.start 1, .put 0 1 false 0, .put 0 2 false 0, .workerExit 0, .setTerminateAndWait 1, .resume 0 0]

theorem disorderly_runs :
    ¬ Machine.Along Sound step (init 2 1 2) flushRun ∧
      ¬ Machine.Along Sound step (init 1 1 2) idleRun ∧
      ¬ Machine.Along Sound step (init 0 1 1) exitRun ∧
      ¬ Machine.Along Sound step (init 2 1 3) terminateRun ∧
      ¬ Machine.Along Sound step (init 1 1 2) resetRun :=
  ⟨fun sound => absurd (balanced_of_sound sound) (by decide),
    fun sound => absurd (balanced_of_sound sound) (by decide),
    fun sound => absurd (balanced_of_sound sound) (by decide),
    fun sound => absurd (balanced_of_sound sound) (by decide),
    fun sound => absurd (balanced_of_sound sound) (by decide)⟩

end Runs

end Upmpdcli.WorkQueue
