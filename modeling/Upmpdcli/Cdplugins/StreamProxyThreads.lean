import Upmpdcli.Cdplugins.StreamProxy

set_option autoImplicit false

/- The transfer of `ContentReader` with what its two threads lock and wait for: the mutex
and the condition of `CurlFetch::Internal`, the two conditions of the queue, the join of
`reset` and the one of the destructor. -/
namespace Upmpdcli

/-- A thread in a wait on a condition variable. `woken` is one which has been notified, or
woken for no reason, and has not tested its condition again. -/
inductive Wait
  | awake
  | asleep
  | woken
deriving DecidableEq

def Wait.notify : Wait → Wait
  | .asleep => .woken
  | wait => wait

/-- `~Internal`, which the connection thread runs. `joining` is its `curlworker.join()`. -/
inductive Destructor
  | alive
  | joining
  | done
deriving DecidableEq

/-- `headers`, `taker` and `idler` are the waits of `waitForHeaders`, `take` and
`waitIdle`. `curl` tells if the handle exists, `announced` that the fetch thread has left
its first locked section, `returned` is what `curl_easy_perform` has returned while the
last locked section is still to come. -/
structure ProxyThreads where
  reader : ContentReader
  curl : Bool := false
  curlfd : Bool := false
  aborting : Bool := false
  headersOk : Bool := false
  announced : Bool := false
  returned : Option CURLcode := none
  destructor : Destructor := .alive
  headers : Wait := .awake
  taker : Wait := .awake
  idler : Wait := .awake
  workersWaiting : Nat := 0
  clientsWaiting : Nat := 0
deriving DecidableEq

namespace ProxyThreads

open ContentReader (answerConn)

/-- The state `answerConn` leaves after its first call. -/
def start (offset : Nat) : ProxyThreads := { reader := answerConn offset }

inductive Action
  | announce
  | initFails
  | perform
  | sockopt
  | header (last : Bool)
  | write (count : Nat)
  | performReturns (code : CURLcode)
  | final
  | putEOS
  | waitIdle
  | setTerminate
  | waitForHeaders
  | contentRead (max : Nat)
  | take
  | takeWaits
  | takeFailed (timedOut : Bool) (garbage : FetchStatus)
  | giveBack
  | copied
  | restart
  | destroy
  | joined
  | wakeHeaders
  | wakeTaker
  | wakeIdler
deriving DecidableEq

abbrev outqueue (s : ProxyThreads) : BufXChange ABuffer := s.reader.fetcher.outqueue

/-- `curlmutex` can be taken. Its locked sections do not block, so that each of them is one
step, and the waits on `curlcv` release it. `~Internal` keeps it during its `join`. -/
def free (s : ProxyThreads) : Bool := s.destructor ≠ .joining

/-- What `put` does to `take` when it has made the queue longer. -/
def putNotifies (s : ProxyThreads) (queue : BufXChange ABuffer) : Wait :=
  if s.outqueue.queue.length < queue.queue.length ∧ 0 < s.workersWaiting then s.taker.notify
  else s.taker

/-- The counter once the thread which waited is through, or tests its condition again. -/
def through (wait : Wait) (waiting : Nat) : Nat := if wait = .woken then waiting - 1 else waiting

/- The fetch thread. -/

def announce (s : ProxyThreads) : Option ProxyThreads :=
  if s.free ∧ s.reader.worker = .entered ∧ s.announced = false then
    some { s with announced := true, headers := s.headers.notify }
  else none

/-- `curl_easy_init` has failed. The thread goes on to `setTerminate`. -/
def initFails (s : ProxyThreads) : Option ProxyThreads :=
  if s.free ∧ s.reader.worker = .entered ∧ s.announced = true ∧ s.curl = false then
    let fetcher := { s.reader.fetcher with curldone := true }
    some { s with reader := { s.reader with fetcher := fetcher, worker := .closing } }
  else none

def perform (origin : List UInt8) (s : ProxyThreads) : Option ProxyThreads :=
  if s.announced = true then
    (s.reader.perform origin).map fun reader => { s with reader := reader, curl := true }
  else none

/-- libcurl is in `curl_easy_perform`. -/
def performing (s : ProxyThreads) : Bool :=
  match s.reader.worker with
  | .performing _ => s.returned.isNone
  | _ => false

def sockopt (s : ProxyThreads) : Option ProxyThreads :=
  if s.free ∧ s.performing then some { s with curlfd := true } else none

def header (s : ProxyThreads) (last : Bool) : Option ProxyThreads :=
  if s.free ∧ s.performing then
    some (if last then { s with headersOk := true, headers := s.headers.notify } else s)
  else none

/-- `curlWriteCB` notifies the headers condition as long as nothing has been queued. When
the callback fails, `curl_easy_perform` returns. -/
def write (s : ProxyThreads) (count : Nat) : Option ProxyThreads :=
  match s.reader.worker with
  | .performing rest =>
      if s.free ∧ s.returned = none ∧ 0 < count ∧ count ≤ rest.length then
        let result := s.reader.fetcher.curlWriteCB (rest.take count)
        let worker := .performing (if result.2 then rest.drop count else rest)
        some { s with
          reader := { s.reader with fetcher := result.1, worker := worker }
          returned := if result.2 then none else some .writeError
          headers := if s.reader.fetcher.fetchDataCount = 0 then s.headers.notify else s.headers
          taker := s.putNotifies result.1.outqueue }
      else none
  | _ => none

/-- `curl_easy_perform` can fail at any point, and does so when its socket is closed. It is
fine only when everything has come. -/
def performReturns (s : ProxyThreads) (code : CURLcode) : Option ProxyThreads :=
  match s.reader.worker with
  | .performing rest =>
      if s.returned = none ∧ (code = .ok → rest = []) then some { s with returned := some code }
      else none
  | _ => none

/-- The locked section which follows `curl_easy_perform`. -/
def final (s : ProxyThreads) : Option ProxyThreads :=
  if s.free then
    match s.returned with
    | none => none
    | some code =>
        if s.aborting then
          some { s with reader := { s.reader with worker := .exited }, returned := none }
        else
          (s.reader.performed code).map fun reader =>
            { s with
              reader := reader
              returned := none
              curlfd := false
              headers := s.headers.notify
              taker := s.putNotifies reader.fetcher.outqueue }
  else none

def putEOS (s : ProxyThreads) : Option ProxyThreads :=
  if s.curl = true then
    s.reader.putEOS.map fun reader =>
      { s with reader := reader, taker := s.putNotifies reader.fetcher.outqueue }
  else none

/-- The wait in `waitIdle`. -/
def waitIdle (s : ProxyThreads) : Option ProxyThreads :=
  if s.reader.worker = .waiting ∧ s.idler ≠ .asleep ∧ s.outqueue.idle = false then
    some { s with idler := .asleep, clientsWaiting := through s.idler s.clientsWaiting + 1 }
  else none

/-- The end of `curlWorkerFunc`. Without a handle the transfer has no code. -/
def setTerminate (s : ProxyThreads) : Option ProxyThreads :=
  if s.curl = false then
    if s.reader.worker = .closing then
      let fetcher := { s.reader.fetcher with outqueue := s.outqueue.setTerminate }
      some { s with
        reader := { s.reader with fetcher := fetcher, worker := .exited }
        headers := s.headers.notify
        taker := s.taker.notify }
    else none
  else if s.idler ≠ .asleep then
    s.reader.setTerminate.map fun reader =>
      { s with
        reader := reader
        taker := s.taker.notify
        idler := .awake
        clientsWaiting := through s.idler s.clientsWaiting }
  else none

/- The connection thread. -/

/-- It waits for the first data, and stops on an error. `curlrunning()` holds from `start`
to `reset`. -/
def waitForHeaders (s : ProxyThreads) : Option ProxyThreads :=
  if s.destructor = .alive ∧ s.reader.call = .outside ∧ s.headers ≠ .asleep then
    let fetcher := s.reader.fetcher
    let waits := !s.aborting && !fetcher.curldone &&
      fetcher.fetchDataCount + fetcher.headbuf.bytes = 0
    some { s with headers := if waits then .asleep else .awake }
  else none

/-- No call is running. -/
def resting (s : ProxyThreads) : Bool := s.destructor = .alive ∧ s.headers = .awake

def contentRead (s : ProxyThreads) (max : Nat) : Option ProxyThreads :=
  if s.resting then (s.reader.contentRead max).map fun reader => { s with reader := reader }
  else none

def take (s : ProxyThreads) : Option ProxyThreads :=
  if s.resting ∧ s.taker ≠ .asleep then
    s.reader.take.map fun reader =>
      { s with
        reader := reader
        taker := .awake
        workersWaiting := through s.taker s.workersWaiting
        idler := if 0 < s.clientsWaiting then s.idler.notify else s.idler }
  else none

/-- The wait in `take`. -/
def takeWaits (s : ProxyThreads) : Option ProxyThreads :=
  match s.reader.call with
  | .reading max obuf =>
      if s.resting ∧ obuf.length < max ∧ s.taker ≠ .asleep ∧ s.outqueue.takeWaits then
        some { s with
          taker := .asleep
          workersWaiting := through s.taker s.workersWaiting + 1
          idler := s.idler.notify }
      else none
  | _ => none

/-- After its time-out `take` returns at once, without counting itself out. -/
def takeFailed (s : ProxyThreads) (timedOut : Bool) (garbage : FetchStatus) :
    Option ProxyThreads :=
  if s.resting then
    if timedOut then
      if s.taker ≠ .awake then
        (s.reader.takeFailed garbage).map fun reader => { s with reader := reader, taker := .awake }
      else none
    else if s.taker ≠ .asleep ∧ s.outqueue.ok = false then
      (s.reader.takeFailed garbage).map fun reader =>
        { s with
          reader := reader
          taker := .awake
          workersWaiting := through s.taker s.workersWaiting }
    else none
  else none

/-- Neither `untake` nor `recycle` notifies anybody. -/
def giveBack (s : ProxyThreads) : Option ProxyThreads :=
  if s.resting then s.reader.giveBack.map fun reader => { s with reader := reader } else none

/-- The call is between two `take`. -/
def copied (s : ProxyThreads) : Option ProxyThreads :=
  if s.resting then s.reader.copied.map fun reader => { s with reader := reader } else none

/-- The queue's `reset` also clears its two counters. -/
def restart (s : ProxyThreads) : Option ProxyThreads :=
  if s.resting then
    s.reader.restart.map fun reader =>
      { s with
        reader := reader
        announced := false
        workersWaiting := 0
        clientsWaiting := 0
        taker := s.taker.notify
        idler := s.idler.notify }
  else none

/-- `~Internal` up to its `join`. The connection thread is not in a call of the reader, so
that `extWaitingThreads` is 0. -/
def destroy (s : ProxyThreads) : Option ProxyThreads :=
  if s.resting ∧ (s.reader.call = .outside ∨ s.reader.call = .ended true ∨
      s.reader.call = .ended false) then
    let fetcher := { s.reader.fetcher with outqueue := s.outqueue.setTerminate }
    some { s with
      reader := { s.reader with fetcher := fetcher }
      aborting := true
      curlfd := false
      taker := s.taker.notify
      idler := s.idler.notify
      destructor := .joining }
  else none

def joined (s : ProxyThreads) : Option ProxyThreads :=
  if s.destructor = .joining ∧ s.reader.worker = .exited then some { s with destructor := .done }
  else none

/-- Every interleaving of the two threads is a run of this machine. A condition variable
may also wake its thread for no reason. -/
def step (origin : List UInt8) (s : ProxyThreads) (action : Action) :
    Option (ProxyThreads × Unit) :=
  let next :=
    match action with
    | .announce => s.announce
    | .initFails => s.initFails
    | .perform => s.perform origin
    | .sockopt => s.sockopt
    | .header last => s.header last
    | .write count => s.write count
    | .performReturns code => s.performReturns code
    | .final => s.final
    | .putEOS => s.putEOS
    | .waitIdle => s.waitIdle
    | .setTerminate => s.setTerminate
    | .waitForHeaders => s.waitForHeaders
    | .contentRead max => s.contentRead max
    | .take => s.take
    | .takeWaits => s.takeWaits
    | .takeFailed timedOut garbage => s.takeFailed timedOut garbage
    | .giveBack => s.giveBack
    | .copied => s.copied
    | .restart => s.restart
    | .destroy => s.destroy
    | .joined => s.joined
    | .wakeHeaders => some { s with headers := s.headers.notify }
    | .wakeTaker => some { s with taker := s.taker.notify }
    | .wakeIdler => some { s with idler := s.idler.notify }
  next.map (·, ())

end ProxyThreads

end Upmpdcli
