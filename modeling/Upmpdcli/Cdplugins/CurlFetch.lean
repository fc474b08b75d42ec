import Upmpdcli.Cdplugins.BufXChange

set_option autoImplicit false

namespace Upmpdcli

/-- The results of `curl_easy_perform` which the code tells apart. -/
inductive CURLcode
  | ok
  | partialFile
  | recvError
  | sendError
  | writeError
  | other
deriving DecidableEq

/-- `NetFetch::FetchStatus`. -/
inductive FetchStatus
  | fetchOk
  | fetchRetryable
  | fetchFatal
deriving DecidableEq

/-- `CurlFetch` with its `Internal`. `range` is the `CURLOPT_RANGE` of the handle, which
lives as long as the object; `outqueue` is the queue the pointer designates. -/
structure CurlFetch where
  startoffset : Nat := 0
  fetchDataCount : Nat := 0
  outqueue : BufXChange ABuffer := {}
  range : Option Nat := none
  curldone : Bool := false
  curlCode : CURLcode := .ok
  headbuf : ABuffer := .alloc 1024
deriving DecidableEq

namespace CurlFetch

/-- `NetFetch::databufToQ`. The flag is false when the code returns -1. -/
def databufToQ (m : CurlFetch) (contents : List UInt8) : CurlFetch × Bool :=
  let (spare, queue) :=
    match m.outqueue.takeRecycled with
    | some (buf, queue) => (some buf, queue)
    | none => (none, m.outqueue)
  match queue.put (ABuffer.fill spare contents) with
  | none => ({ m with outqueue := queue }, false)
  | some queue =>
      ({ m with outqueue := queue, fetchDataCount := m.fetchDataCount + contents.length }, true)

/-- `databufToQ(headbuf.buf, headbuf.bytes); headbuf.bytes = 0`, the result being ignored. -/
def flushHeadbuf (m : CurlFetch) : CurlFetch :=
  if m.headbuf.bytes ≠ 0 then
    { (m.databufToQ m.headbuf.data).1 with headbuf := m.headbuf.clear }
  else m

/-- `Internal::curlWriteCB`. Nothing in the program sets `buf1cb`. -/
def curlWriteCB (m : CurlFetch) (contents : List UInt8) : CurlFetch × Bool :=
  if m.fetchDataCount = 0 ∧ m.headbuf.bytes < 1024 then
    ({ m with headbuf := m.headbuf.append contents }, true)
  else
    m.flushHeadbuf.databufToQ contents

/-- The part of `start` the transfer depends on. It is called with no transfer active. -/
def start (m : CurlFetch) (offset : Nat) : CurlFetch := { m with startoffset := offset }

/-- `curlWorkerFunc` up to `curl_easy_perform`: a zero offset leaves the range option as
the previous transfer set it. -/
def setRange (m : CurlFetch) : CurlFetch :=
  { m with range := if m.startoffset ≠ 0 then some m.startoffset else m.range }

/-- Where the server is asked to begin. -/
def asked (m : CurlFetch) : Nat := m.range.getD 0

/-- The locked section of `curlWorkerFunc` which follows `curl_easy_perform`. -/
def performed (m : CurlFetch) (code : CURLcode) : CurlFetch :=
  { { m with curlCode := code }.flushHeadbuf with curldone := true }

/-- `reset`, after the `join`. -/
def reset (m : CurlFetch) : CurlFetch :=
  { m with curldone := false, curlCode := .ok, fetchDataCount := 0, outqueue := m.outqueue.reset }

def status : CURLcode → FetchStatus
  | .partialFile | .recvError | .sendError => .fetchRetryable
  | .ok => .fetchOk
  | .writeError | .other => .fetchFatal

/-- `fetchDone` leaves `*code` alone while the transfer is not done. -/
def fetchDone (m : CurlFetch) : Option FetchStatus :=
  if m.curldone then some (status m.curlCode) else none

/-- The bytes a queue holds for its reader. -/
def content (queue : List ABuffer) : List UInt8 := queue.flatMap ABuffer.unread

@[simp] theorem content_nil : content [] = [] := rfl

@[simp] theorem content_cons (buf : ABuffer) (queue : List ABuffer) :
    content (buf :: queue) = buf.unread ++ content queue := rfl

@[simp] theorem content_append (left right : List ABuffer) :
    content (left ++ right) = content left ++ content right := by
  simp only [content, List.flatMap_append]

theorem databufToQ_of_ok (m : CurlFetch) (contents : List UInt8) (alive : m.outqueue.ok = true) :
    ∃ buf rqueue, buf.unread = contents ∧ buf.bytes = contents.length ∧
      m.databufToQ contents =
        ({ m with
            outqueue := { m.outqueue with queue := m.outqueue.queue ++ [buf], rqueue := rqueue }
            fetchDataCount := m.fetchDataCount + contents.length }, true) := by
  cases found : m.outqueue.takeRecycled with
  | none =>
      refine ⟨ABuffer.fill none contents, m.outqueue.rqueue, by simp, by simp, ?_⟩
      simp only [databufToQ, found, BufXChange.put, alive, ↓reduceIte, Bool.false_eq_true]
  | some result =>
      obtain ⟨spare, queue⟩ := result
      obtain ⟨rqueue, rfl⟩ := BufXChange.takeRecycled_eq _ _ _ found
      refine ⟨ABuffer.fill (some spare) contents, rqueue, by simp, by simp, ?_⟩
      simp only [databufToQ, found, BufXChange.put, alive, ↓reduceIte, Bool.false_eq_true]

/-- What happens to the fetcher when it has queued buffers and kept a head buffer. -/
def queued (m : CurlFetch) (datas rqueue : List ABuffer) (headbuf : ABuffer) (count : Nat) :
    CurlFetch :=
  { m with
    outqueue := { m.outqueue with queue := m.outqueue.queue ++ datas, rqueue := rqueue }
    headbuf := headbuf
    fetchDataCount := count }

theorem flushHeadbuf_of_ok (m : CurlFetch) (alive : m.outqueue.ok = true) :
    ∃ datas rqueue headbuf count, m.flushHeadbuf = m.queued datas rqueue headbuf count ∧
      headbuf.data = [] ∧ content datas = m.headbuf.data ∧ ∀ buf ∈ datas, buf.bytes ≠ 0 := by
  by_cases some : m.headbuf.bytes ≠ 0
  · obtain ⟨buf, rqueue, unread, bytes, run⟩ := m.databufToQ_of_ok m.headbuf.data alive
    refine ⟨[buf], rqueue, m.headbuf.clear, m.fetchDataCount + m.headbuf.bytes, ?_, rfl,
      by simp [unread], ?_⟩
    · simp only [flushHeadbuf, some, ne_eq, not_false_eq_true, ↓reduceIte, run]
      rfl
    · intro other member
      rw [List.mem_singleton.mp member, bytes]
      exact some
  · have empty : m.headbuf.data = [] := by
      simpa only [ABuffer.bytes, ne_eq, not_not, List.length_eq_zero_iff] using some
    refine ⟨[], m.outqueue.rqueue, m.headbuf, m.fetchDataCount, ?_, empty, empty.symm, by simp⟩
    simp only [flushHeadbuf, some, ↓reduceIte, queued, List.append_nil]

theorem performed_of_ok (m : CurlFetch) (code : CURLcode) (alive : m.outqueue.ok = true) :
    ∃ datas rqueue headbuf count,
      m.performed code =
        { m.queued datas rqueue headbuf count with curlCode := code, curldone := true } ∧
      headbuf.data = [] ∧ content datas = m.headbuf.data ∧ ∀ buf ∈ datas, buf.bytes ≠ 0 := by
  obtain ⟨datas, rqueue, headbuf, count, flushed, facts⟩ :=
    flushHeadbuf_of_ok { m with curlCode := code } alive
  refine ⟨datas, rqueue, headbuf, count, ?_, facts⟩
  rw [performed, flushed]
  rfl

/-- A chunk from the server ends up after everything received before it, in the queue or
in the head buffer. -/
theorem curlWriteCB_of_ok (m : CurlFetch) (contents : List UInt8) (alive : m.outqueue.ok = true)
    (some : contents ≠ []) :
    ∃ datas rqueue headbuf count,
      m.curlWriteCB contents = (m.queued datas rqueue headbuf count, true) ∧
        content datas ++ headbuf.data = m.headbuf.data ++ contents ∧
        ∀ buf ∈ datas, buf.bytes ≠ 0 := by
  by_cases early : m.fetchDataCount = 0 ∧ m.headbuf.bytes < 1024
  · refine ⟨[], m.outqueue.rqueue, m.headbuf.append contents, m.fetchDataCount, ?_, rfl, by simp⟩
    simp only [curlWriteCB, early, and_self, ↓reduceIte, queued, List.append_nil]
  · obtain ⟨datas, rqueue, headbuf, count, flushed, empty, same, full⟩ := m.flushHeadbuf_of_ok alive
    have alive' : m.flushHeadbuf.outqueue.ok = true := by rw [flushed]; exact alive
    obtain ⟨buf, rqueue', unread, bytes, run⟩ :=
      m.flushHeadbuf.databufToQ_of_ok contents alive'
    refine ⟨datas ++ [buf], rqueue', headbuf, count + contents.length, ?_, ?_, ?_⟩
    · rw [curlWriteCB, if_neg early, run, flushed]
      simp only [queued, List.append_assoc]
    · simp only [content_append, content_cons, content_nil, List.append_nil, unread, same, empty]
    · intro other member
      rcases List.mem_append.mp member with old | new
      · exact full other old
      · rw [List.mem_singleton.mp new, bytes]
        simpa only [ne_eq, List.length_eq_zero_iff] using some

end CurlFetch

end Upmpdcli
