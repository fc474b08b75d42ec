import Upmpdcli.Lib.Condvar
import Upmpdcli.Lib.Machine

set_option autoImplicit false

/- `WorkQueue<T>` and the threads which use it. A step is what a thread does from when it has
`m_mutex` to when it leaves or waits. -/
namespace Upmpdcli

open Condvar

namespace WorkQueue

/-- What a client waits for on `m_ccond`. -/
inductive ClientWait (T : Type)
  | put (t : T) (flushprevious : Bool)
  | waitIdle
  | setTerminateAndWait
deriving DecidableEq

def ClientWait.forRoom {T : Type} : ClientWait T → Bool
  | put _ _ => true
  | waitIdle => false
  | setTerminateAndWait => false

/-- Where a worker is outside of the wait of `take`. It is `leaving` when `take` has returned
false. -/
inductive WorkerPlace
  | away
  | leaving
  | exited
deriving DecidableEq

abbrev Client (T : Type) := Waiter Unit (ClientWait T)

abbrev Worker := Waiter WorkerPlace Unit

end WorkQueue

/-- The queue without its statistics, and its clients. `puts`, `taken` and `flushed` are the
tasks of the calls so far, in order. -/
structure WorkQueue (T : Type) where
  m_high : Nat
  m_low : Nat
  m_workers_exited : UInt32 := 0
  m_ok : Bool := true
  m_openforbusiness : Bool := true
  m_worker_threads : List WorkQueue.Worker := []
  m_queue : List T := []
  m_clients_waiting : UInt32 := 0
  m_workers_waiting : UInt32 := 0
  clients : List (WorkQueue.Client T)
  puts : List T := []
  taken : List T := []
  flushed : List T := []

namespace WorkQueue

/-- What a step makes a call return. `garbage` is the `front` of an empty queue. -/
inductive Returned (T : Type)
  | nothing
  | put (done : Bool)
  | waitIdle (isok : Bool)
  | ended
  | take (task : Option T)
  | garbage
deriving DecidableEq

/-- The calls, and the ends of the waits, for whatever reason. `choice` is the thread which a
`notify_one` of the step would wake. -/
inductive Action (T : Type)
  | start (nworkers : Nat)
  | closeShop
  | put (client : Nat) (t : T) (flushprevious : Bool) (choice : Nat)
  | waitIdle (client : Nat)
  | setTerminateAndWait (client : Nat)
  | resume (client choice : Nat)
  | take (worker choice : Nat)
  | resumeTake (worker choice : Nat)
  | workerExit (worker : Nat)
deriving DecidableEq

variable {T : Type}

/-- `WorkQueue(name, hi, lo)`, with some client threads. -/
def init (hi lo nclients : Nat) : WorkQueue T :=
  { m_high := hi, m_low := lo, clients := List.replicate nclients (.out ()) }

def ok (q : WorkQueue T) : Bool :=
  q.m_ok && q.m_workers_exited == 0 && !q.m_worker_threads.isEmpty

/-- `m_clients_waiting++; m_ccond.wait(lock);`. -/
def waitClient (q : WorkQueue T) (client : Nat) (reason : ClientWait T) : WorkQueue T :=
  { q with
    m_clients_waiting := q.m_clients_waiting + 1
    clients := q.clients.set client (.wait reason false) }

/-- `m_clients_waiting--`, behind the wait. -/
def leaveClient (q : WorkQueue T) (client : Nat) : WorkQueue T :=
  { q with
    m_clients_waiting := q.m_clients_waiting - 1
    clients := q.clients.set client (.out ()) }

def waitWorker (q : WorkQueue T) (worker : Nat) : WorkQueue T :=
  { q with
    m_workers_waiting := q.m_workers_waiting + 1
    m_worker_threads := q.m_worker_threads.set worker (.wait () false) }

def leaveWorker (q : WorkQueue T) (worker : Nat) : WorkQueue T :=
  { q with
    m_workers_waiting := q.m_workers_waiting - 1
    m_worker_threads := q.m_worker_threads.set worker (.out .away) }

def setWorker (q : WorkQueue T) (worker : Nat) (place : WorkerPlace) : WorkQueue T :=
  { q with m_worker_threads := q.m_worker_threads.set worker (.out place) }

def notifyClients (q : WorkQueue T) : WorkQueue T := { q with clients := notifyAll q.clients }

def notifyWorkers (q : WorkQueue T) : WorkQueue T :=
  { q with m_worker_threads := notifyAll q.m_worker_threads }

/-- No notification when nobody is counted. -/
def notifyClient (q : WorkQueue T) (choice : Nat) : Option (WorkQueue T) :=
  if 0 < q.m_clients_waiting then
    (notifyOne q.clients choice).map fun clients => { q with clients := clients }
  else some q

def notifyWorker (q : WorkQueue T) (choice : Nat) : Option (WorkQueue T) :=
  if 0 < q.m_workers_waiting then
    (notifyOne q.m_worker_threads choice).map fun threads => { q with m_worker_threads := threads }
  else some q

/-- No room for one more task. -/
def full (q : WorkQueue T) : Bool := 0 < q.m_high && q.m_high ≤ q.m_queue.length

def push (q : WorkQueue T) (t : T) (flushprevious : Bool) : WorkQueue T :=
  { q with
    m_queue := (if flushprevious then [] else q.m_queue) ++ [t]
    puts := q.puts ++ [t]
    flushed := q.flushed ++ (if flushprevious then q.m_queue else []) }

/-- `put`, from the test of its loop. -/
def putTurn (q : WorkQueue T) (client : Nat) (t : T) (flushprevious : Bool) (choice : Nat) :
    Option (WorkQueue T × Returned T) :=
  if !q.ok then some (q, .put false)
  else if q.full then some (q.waitClient client (.put t flushprevious), .nothing)
  else ((q.push t flushprevious).notifyWorker choice).map fun q => (q, .put true)

def put (q : WorkQueue T) (client : Nat) (t : T) (flushprevious : Bool) (choice : Nat) :
    Option (WorkQueue T × Returned T) :=
  if !q.ok || !q.m_openforbusiness then some (q, .put false)
  else q.putTurn client t flushprevious choice

/-- The condition of the loop of `waitIdle`. -/
def busy (q : WorkQueue T) : Bool :=
  (0 < q.m_queue.length && q.m_workers_exited.toNat < q.m_worker_threads.length) ||
    (q.m_workers_waiting + q.m_workers_exited).toNat < q.m_worker_threads.length

/-- `waitIdle`, from the test of its loop. -/
def idleTurn (q : WorkQueue T) (client : Nat) : WorkQueue T × Returned T :=
  if q.busy then (q.waitClient client .waitIdle, .nothing) else (q, .waitIdle q.ok)

/-- "Reset to start state". -/
def reset (q : WorkQueue T) : WorkQueue T :=
  { q with
    m_workers_exited := 0
    m_clients_waiting := 0
    m_workers_waiting := 0
    m_ok := true
    m_worker_threads := [] }

/-- `setTerminateAndWait`, from the test of its loop. The joins keep the mutex, and do not
return before the last worker has. -/
def terminateTurn (q : WorkQueue T) (client : Nat) : Option (WorkQueue T × Returned T) :=
  if q.m_workers_exited.toNat < q.m_worker_threads.length then
    some (q.notifyWorkers.waitClient client .setTerminateAndWait, .nothing)
  else if q.m_worker_threads.all (· == .out .exited) then some (q.reset, .ended)
  else none

def setTerminateAndWait (q : WorkQueue T) (client : Nat) : Option (WorkQueue T × Returned T) :=
  if q.m_worker_threads.isEmpty then some (q, .ended)
  else terminateTurn { q with m_ok := false } client

/-- `take`, from the test of its loop. -/
def takeTurn (q : WorkQueue T) (worker choice : Nat) : Option (WorkQueue T × Returned T) :=
  if !q.ok then some (q.setWorker worker .leaving, .take none)
  else if q.m_queue.length < q.m_low then
    some ((if q.m_queue.isEmpty then q.notifyClients else q).waitWorker worker, .nothing)
  else
    match q.m_queue with
    | [] => some (q, .garbage)
    | t :: rest =>
        (notifyClient { q with m_queue := rest, taken := q.taken ++ [t] } choice).map fun q =>
          (q, .take (some t))

/-- A worker calls it once, and does not come back. -/
def workerExit (q : WorkQueue T) (worker : Nat) : WorkQueue T :=
  { q.notifyClients.setWorker worker .exited with
    m_workers_exited := q.m_workers_exited + 1
    m_ok := false }

/-- The wait of a client returns. -/
def resume (q : WorkQueue T) (client choice : Nat) : Option (WorkQueue T × Returned T) :=
  match q.clients[client]? with
  | some (.wait (.put t flushprevious) _) =>
      (q.leaveClient client).putTurn client t flushprevious choice
  | some (.wait .waitIdle _) => some ((q.leaveClient client).idleTurn client)
  | some (.wait .setTerminateAndWait _) => (q.leaveClient client).terminateTurn client
  | _ => none

/-- A client calls, when it is in no other call. -/
def call (q : WorkQueue T) (client : Nat) (result : Option (WorkQueue T × Returned T)) :
    Option (WorkQueue T × Returned T) :=
  match q.clients[client]? with
  | some (.out _) => result
  | _ => none

def step (q : WorkQueue T) : Action T → Option (WorkQueue T × Returned T)
  | .start nworkers =>
      some ({ q with
        m_worker_threads := q.m_worker_threads ++ List.replicate nworkers (.out .away) }, .nothing)
  | .closeShop => some ({ q with m_openforbusiness := false }, .nothing)
  | .put client t flushprevious choice => q.call client (q.put client t flushprevious choice)
  | .waitIdle client => q.call client (some (q.idleTurn client))
  | .setTerminateAndWait client => q.call client (q.setTerminateAndWait client)
  | .resume client choice => q.resume client choice
  | .take worker choice =>
      match q.m_worker_threads[worker]? with
      | some (.out .away) => q.takeTurn worker choice
      | _ => none
  | .resumeTake worker choice =>
      match q.m_worker_threads[worker]? with
      | some (.wait _ _) => (q.leaveWorker worker).takeTurn worker choice
      | _ => none
  | .workerExit worker =>
      match q.m_worker_threads[worker]? with
      | some (.out .away) => some (q.workerExit worker, .nothing)
      | some (.out .leaving) => some (q.workerExit worker, .nothing)
      | _ => none

end WorkQueue
end Upmpdcli
