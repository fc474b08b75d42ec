import Upmpdcli.Lib.Machine
import Upmpdcli.Cdplugins.CurlFetch

set_option autoImplicit false

/- One proxied transfer: the fetch thread of `CurlFetch`, the thread which runs the
`contentRead` calls of libmicrohttpd, and the queue between them. -/
namespace Upmpdcli

/-- Where the fetch thread is. `rest` is what the server has still to send. -/
inductive Worker
  | entered
  | performing (rest : List UInt8)
  | closing
  | waiting
  | exited
deriving DecidableEq

/-- Where the current `contentRead` call is. `joining` is the wait in `fetcher->reset()`
of a call which is retrying. -/
inductive Call
  | outside
  | reading (max : Nat) (obuf : List UInt8)
  | holding (max : Nat) (obuf : List UInt8) (abuf : ABuffer)
  | joining (totcnt : Nat)
  | ended (normal : Bool)
deriving DecidableEq

/-- A `ContentReader` with both its threads. `sent` is what the calls have returned so
far, so its length is the `pos` of the next one. -/
structure ContentReader where
  fetcher : CurlFetch
  worker : Worker := .entered
  normalEOS : Bool := false
  call : Call := .outside
  sent : List UInt8 := []
deriving DecidableEq

namespace ContentReader

/-- `answerConn` on a request for the range `offset-`. -/
def answerConn (offset : Nat) : ContentReader := { fetcher := ({} : CurlFetch).start offset }

inductive Action
  | perform
  | write (count : Nat)
  | performed (code : CURLcode)
  | putEOS
  | setTerminate
  | contentRead (max : Nat)
  | take
  | takeFailed (garbage : FetchStatus)
  | giveBack
  | copied
  | restart
deriving DecidableEq

/-- libcurl delivers the origin in order from where it was asked to begin. -/
def perform (origin : List UInt8) (s : ContentReader) : Option ContentReader :=
  match s.worker with
  | .entered =>
      let fetcher := s.fetcher.setRange
      some { s with fetcher := fetcher, worker := .performing (origin.drop fetcher.asked) }
  | _ => none

/-- libcurl never calls back with no data, and aborts when the callback returns another
count than the one it was given. -/
def write (s : ContentReader) (count : Nat) : Option ContentReader :=
  match s.worker with
  | .performing rest =>
      if 0 < count ∧ count ≤ rest.length then
        match s.fetcher.curlWriteCB (rest.take count) with
        | (fetcher, true) =>
            some { s with fetcher := fetcher, worker := .performing (rest.drop count) }
        | (fetcher, false) =>
            some { s with fetcher := fetcher.performed .writeError, worker := .closing }
      else none
  | _ => none

/-- The transfer can fail at any point; it is fine only when everything has come. -/
def performed (s : ContentReader) (code : CURLcode) : Option ContentReader :=
  match s.worker with
  | .performing rest =>
      if code = .ok → rest = [] then
        some { s with fetcher := s.fetcher.performed code, worker := .closing }
      else none
  | _ => none

def putEOS (s : ContentReader) : Option ContentReader :=
  if s.worker = .closing ∧ s.fetcher.curlCode = .ok then
    let queue := s.fetcher.outqueue
    some { s with
      fetcher := { s.fetcher with outqueue := (queue.put (.alloc 0)).getD queue }
      worker := .waiting }
  else none

/-- After an error at once, after a normal end when `waitIdle` is over. -/
def setTerminate (s : ContentReader) : Option ContentReader :=
  if (s.worker = .closing ∧ s.fetcher.curlCode ≠ .ok) ∨
      (s.worker = .waiting ∧ s.fetcher.outqueue.idle = true) then
    some { s with
      fetcher := { s.fetcher with outqueue := s.fetcher.outqueue.setTerminate }
      worker := .exited }
  else none

/-- The entry of `contentRead`. -/
def contentRead (s : ContentReader) (max : Nat) : Option ContentReader :=
  match s.call with
  | .outside =>
      if 0 < max then
        some { s with call := if s.normalEOS then .ended true else .reading max [] }
      else none
  | _ => none

/-- The end of a call which returns `totcnt > 0` bytes. -/
def returned (s : ContentReader) (obuf : List UInt8) : ContentReader :=
  { s with call := .outside, sent := s.sent ++ obuf }

/-- `queue.take`, and what the loop does before it gives the buffer back. -/
def take (s : ContentReader) : Option ContentReader :=
  match s.call with
  | .reading max obuf =>
      if obuf.length < max then
        match s.fetcher.outqueue.take with
        | none => none
        | some (abuf, queue) =>
            let s := { s with fetcher := { s.fetcher with outqueue := queue } }
            if abuf.bytes = 0 then
              let s := { s with normalEOS := true }
              some (if obuf = [] then { s with call := .ended true } else s.returned obuf)
            else
              let room := max - obuf.length
              let obuf := obuf ++ abuf.unread.take (abuf.tocopy room)
              some { s with call := .holding max obuf (abuf.advance room) }
      else none
  | _ => none

/-- `queue.take` returned false, because the queue is terminated or after its time-out.
The time-out does not look at the queue again, so nothing is asked of it here. When the
transfer is not done `fetchDone` leaves `code` as it was, which is not initialized. -/
def takeFailed (s : ContentReader) (garbage : FetchStatus) : Option ContentReader :=
  match s.call with
  | .reading max obuf =>
      if obuf.length < max then
        if s.fetcher.fetchDone.getD garbage = .fetchRetryable then
          some { s with call := .joining obuf.length }
        else some { s with call := .ended false }
      else none
  | _ => none

/-- Recycle the buffer or put it back in front. The result of `untake` is not checked. -/
def giveBack (s : ContentReader) : Option ContentReader :=
  match s.call with
  | .holding max obuf abuf =>
      let queue := s.fetcher.outqueue
      let queue :=
        if abuf.bytes ≤ abuf.curoffs then queue.recycle abuf else (queue.untake abuf).getD queue
      some { s with
        fetcher := { s.fetcher with outqueue := queue }
        call := .reading max obuf }
  | _ => none

/-- The loop is over, the output buffer being full. -/
def copied (s : ContentReader) : Option ContentReader :=
  match s.call with
  | .reading max obuf => if max ≤ obuf.length then some (s.returned obuf) else none
  | _ => none

/-- `fetcher->reset(); fetcher->start(&queue, pos+totcnt); return 0`, once the fetch
thread can be joined. -/
def restart (s : ContentReader) : Option ContentReader :=
  match s.call with
  | .joining totcnt =>
      if s.worker = .exited then
        some { s with
          fetcher := s.fetcher.reset.start (s.sent.length + totcnt)
          worker := .entered
          call := .outside }
      else none
  | _ => none

/-- Every interleaving of the two threads is a run of this machine. -/
def step (origin : List UInt8) (s : ContentReader) (action : Action) :
    Option (ContentReader × Unit) :=
  let next :=
    match action with
    | .perform => s.perform origin
    | .write count => s.write count
    | .performed code => s.performed code
    | .putEOS => s.putEOS
    | .setTerminate => s.setTerminate
    | .contentRead max => s.contentRead max
    | .take => s.take
    | .takeFailed garbage => s.takeFailed garbage
    | .giveBack => s.giveBack
    | .copied => s.copied
    | .restart => s.restart
  next.map (·, ())

end ContentReader

end Upmpdcli
