import Upmpdcli.Cdplugins.StreamProxyReply

set_option autoImplicit false

/- Whether the status, the headers and the body of the reply to a range request agree. -/
namespace Upmpdcli

namespace StreamProxy

/-- What libmicrohttpd sends of the data which it is given. -/
def limited (size : Option Nat) (given : List UInt8) : List UInt8 :=
  match size with
  | some size => given.take size
  | none => given

end StreamProxy

namespace MhdResponse

def body (response : MhdResponse) (given : List UInt8) : List UInt8 :=
  if response.reader then StreamProxy.limited response.size given else []

/-- What is wanted of a reply. `given` is what the content reader gives, in the end all the data
of the fetch. -/
structure Agrees (response : MhdResponse) (resource : List UInt8) (origin : OriginBody)
    (given : List UInt8) (complete : Prop) : Prop where
  whole : response.code = 200 →
    (∀ size ∈ response.size, size = resource.length) ∧ response.body given <+: resource ∧
      (complete → response.body given = resource)
  part : response.reader = true → ∀ start, origin = .part start → 0 < start →
    response.code = 206 ∧ ∃ announced, ("Content-Range", announced) ∈ response.headers ∧
      Smallut.beginswith announced ("bytes " ++ toString start ++ "-") = true

end MhdResponse

/-- The data of the server has all come. -/
def HeaderFetch.Complete (m : HeaderFetch) : Prop := m.curldone = true ∧ m.curlCode = .ok

/-- A GET request for a url which is proxied: what the server replies to a fetch from an offset,
and what happens to the fetch before `waitForHeaders` returns and from there to `fetchDone`. -/
structure ProxyRequest where
  range : Option String
  resource : List UInt8
  serve : Nat → OriginReply
  before : List HeaderAct
  between : List HeaderAct
  garbage : Nat := 0

namespace ProxyRequest

def firstCall (q : ProxyRequest) : StreamProxy.FirstCall :=
  StreamProxy.answerConnFirst "GET" q.range .proxy ""

def unsupported (q : ProxyRequest) : Bool := (StreamProxy.processRange q.range).isOk = false

/-- The fetch when `waitForHeaders` returns, and when the handler asks if it is done. -/
def fetched (q : ProxyRequest) (offset : Nat) : Option (HeaderRun × HeaderRun) := do
  let step := HeaderRun.step (q.serve offset)
  let (s, _) ← Machine.run step (HeaderRun.start (q.serve offset) q.resource) q.before
  if s.fetch.ready then
    let (later, _) ← Machine.run step s q.between
    pure (s, later)
  else none

/-- What is wanted: an unsupported range gets its reply, and another reply agrees with the
resource whatever happens to the fetch later. -/
structure Consistent (q : ProxyRequest) : Prop where
  refused : q.unsupported = true → ∃ response ∈ q.firstCall.sent, response.code = 416
  replied : ∀ offset, q.firstCall = .started offset → ∀ s later, q.fetched offset = some (s, later) →
    ∀ actions last outs,
      Machine.run (HeaderRun.step (q.serve offset)) later actions = some (last, outs) →
        (StreamProxy.answerConnSecond s.fetch later.fetch q.garbage).Agrees q.resource
          (q.serve offset).body last.fetch.received last.fetch.Complete

/-- The server sends the resource with its length. Of a transfer which has failed only the
beginning has come. -/
def Whole (q : ProxyRequest) (reply : OriginReply) (size : Option Nat) (m : HeaderFetch) : Prop :=
  (∀ size' ∈ size, size' = q.resource.length) ∧
    if m.curldone = true ∧ m.curlCode ≠ .ok then StreamProxy.limited size m.received <+: q.resource
    else StreamProxy.limited size (reply.contents q.resource) = q.resource

/-- When the reply to a fetch which has been started agrees with the resource. -/
def Fits (q : ProxyRequest) (reply : OriginReply) (m later : HeaderFetch) : Prop :=
  if m.headersOk then
    (∀ start, reply.body = .part start → start = 0) ∧
      (later.curldone = false ∨ later.curlHttpCode = 200 →
        q.Whole reply (StreamProxy.contentLength ((m.headerValue "content-length").getD "")) later)
  else (if later.curldone then later.curlHttpCode else q.garbage) = 200 → q.resource = []

/-- The condition on a request. -/
def Meets (q : ProxyRequest) : Prop :=
  q.unsupported = false ∧
    ∀ offset, StreamProxy.processRange q.range = .ok offset →
      ∀ s later, q.fetched offset = some (s, later) →
        q.Fits (q.serve offset) s.fetch later.fetch

end ProxyRequest

namespace StreamProxy

theorem limited_mono {size : Option Nat} {given given' : List UInt8} (more : given <+: given') :
    limited size given <+: limited size given' := by
  cases size with
  | none => exact more
  | some size =>
      obtain ⟨rest, rfl⟩ := more
      exact List.IsPrefix.take (List.prefix_append given rest) size

/-- No reply announces a part. -/
theorem contentRange_not_mem (m later : HeaderFetch) (garbage : Nat) (announced : String) :
    ("Content-Range", announced) ∉ (answerConnSecond m later garbage).headers := by
  have other {name value : String} (differs : "Content-Range" ≠ name) :
      ("Content-Range", announced) ≠ (name, value) := fun same => differs (congrArg Prod.fst same)
  unfold answerConnSecond
  dsimp only
  split
  · intro member
    rcases List.mem_cons.mp member with same | member
    · exact other (by decide) same
    · rcases List.mem_append.mp member with member | member
      · split at member
        · cases member
        · exact other (by decide) (List.mem_singleton.mp member)
      · split at member
        · cases member
        · exact other (by decide) (List.mem_singleton.mp member)
  · exact fun member => nomatch member

theorem httpCodeOr500_eq_200 (httpcode : Nat) : httpCodeOr500 httpcode = 200 ↔ httpcode = 200 := by
  unfold httpCodeOr500
  split
  · rfl
  · omega

theorem answerConnFirst_get (range : Option String) :
    answerConnFirst "GET" range .proxy "" =
      match processRange range with
      | .error response => .ended (some response) false
      | .ok offset => .started offset := by
  unfold answerConnFirst
  exact if_neg (by decide)

end StreamProxy

namespace HeaderRun

variable {reply : OriginReply} {resource : List UInt8} {s t : HeaderRun}

/-- What has been delivered and what has not make up the contents of the reply. -/
structure Delivers (reply : OriginReply) (resource : List UInt8) (s : HeaderRun) : Prop where
  split : s.fetch.received ++ s.rest = reply.contents resource
  complete : s.fetch.Complete → s.rest = []

theorem received_curlHeaderCB (m : HeaderFetch) (line : String) :
    (m.curlHeaderCB line).received = m.received ∧ (m.curlHeaderCB line).curldone = m.curldone := by
  unfold HeaderFetch.curlHeaderCB
  dsimp only
  split
  · exact ⟨rfl, rfl⟩
  · split
    · exact ⟨rfl, rfl⟩
    · exact ⟨rfl, rfl⟩

theorem step_eq_some {action : HeaderAct} {out : Unit}
    (taken : step reply s action = some (t, out)) :
    s.fetch.curldone = false ∧ s.next reply action = some t := by
  unfold step at taken
  split at taken
  · cases taken
  · rename_i running
    obtain ⟨next, done, same⟩ := Option.map_eq_some_iff.mp taken
    cases same
    exact ⟨Bool.eq_false_iff.mpr running, done⟩

theorem Delivers.step {action : HeaderAct} {out : Unit} (delivers : s.Delivers reply resource)
    (taken : HeaderRun.step reply s action = some (t, out)) : t.Delivers reply resource := by
  obtain ⟨running, done⟩ := step_eq_some taken
  cases action with
  | header =>
      unfold next at done
      dsimp only at done
      split at done
      · cases done
      · rename_i line lines _
        cases done
        obtain ⟨received, still⟩ := received_curlHeaderCB s.fetch line
        refine ⟨?_, fun complete => ?_⟩
        · rw [received]
          exact delivers.split
        · rw [HeaderFetch.Complete, still, running] at complete
          exact nomatch complete.1
  | write count =>
      obtain ⟨-, rfl⟩ := Option.ite_some_none_eq_some.mp done
      refine ⟨?_, fun complete => ?_⟩
      · rw [List.append_assoc, List.take_append_drop]
        exact delivers.split
      · exact nomatch running.symm.trans complete.1
  | performed code =>
      obtain ⟨fine, rfl⟩ := Option.ite_some_none_eq_some.mp done
      exact ⟨delivers.split, fun complete => (fine complete.2).2⟩

theorem delivers_of_run {actions : List HeaderAct} {outs : List Unit}
    (delivers : s.Delivers reply resource)
    (ran : Machine.run (step reply) s actions = some (t, outs)) : t.Delivers reply resource := by
  have preserve (s : HeaderRun) (action : HeaderAct) (t : HeaderRun) (out : Unit)
      (delivers : s.Delivers reply resource) (_ : True)
      (taken : step reply s action = some (t, out)) : t.Delivers reply resource :=
    delivers.step taken
  exact Machine.invariant_of_run preserve s t actions outs delivers
    (Machine.along_true (step reply) s actions) ran

/-- Nothing happens to a fetch which is done. -/
theorem eq_of_done {actions : List HeaderAct} {outs : List Unit}
    (done : s.fetch.curldone = true)
    (ran : Machine.run (step reply) s actions = some (t, outs)) : t = s := by
  cases actions with
  | nil =>
      cases ran
      rfl
  | cons action rest =>
      obtain ⟨next, out, tail, taken, -⟩ := (Machine.run_cons_iff _ _ _ _ _).mp ran
      exact nomatch done.symm.trans (step_eq_some taken).1

/-- A fetch which is not done can end well. -/
theorem exists_complete (delivers : s.Delivers reply resource)
    (running : s.fetch.curldone = false) :
    ∃ actions last outs, Machine.run (step reply) s actions = some (last, outs) ∧
      last.fetch.Complete := by
  obtain ⟨fetch, lines, rest⟩ := s
  change fetch.curldone = false at running
  induction lines generalizing fetch with
  | nil =>
      cases rest with
      | nil =>
          refine ⟨[.performed .ok], _, [()], (Machine.run_cons_iff _ _ _ _ _).mpr
            ⟨⟨fetch.performed .ok reply.code, [], []⟩, (), [], ?_, rfl, rfl⟩, rfl, rfl⟩
          unfold step
          rw [running]
          rfl
      | cons byte bytes =>
          let written : HeaderRun :=
            ⟨{ fetch with received := fetch.received ++ byte :: bytes }, [], []⟩
          refine ⟨[.write (byte :: bytes).length, .performed .ok], _, [(), ()],
            (Machine.run_cons_iff _ _ _ _ _).mpr ⟨written, (), [()], ?_,
              (Machine.run_cons_iff _ _ _ _ _).mpr
                ⟨⟨written.fetch.performed .ok reply.code, [], []⟩, (), [], ?_, rfl, rfl⟩, rfl⟩,
            rfl, rfl⟩
          · simp [step, running, next, written]
          · simp [step, running, next, written]
  | cons line lines ih =>
      obtain ⟨received, still⟩ := received_curlHeaderCB fetch line
      have delivers' : Delivers reply resource ⟨fetch.curlHeaderCB line, lines, rest⟩ := by
        refine ⟨?_, fun complete => ?_⟩
        · rw [received]
          exact delivers.split
        · exact nomatch running.symm.trans (still.symm.trans complete.1)
      obtain ⟨actions, last, outs, ran, complete⟩ :=
        ih (fetch.curlHeaderCB line) delivers' (still.trans running)
      refine ⟨.header :: actions, last, () :: outs, (Machine.run_cons_iff _ _ _ _ _).mpr
        ⟨_, (), outs, ?_, ran, rfl⟩, complete⟩
      unfold step
      rw [running]
      rfl

end HeaderRun

namespace ProxyRequest

open StreamProxy

variable {q : ProxyRequest} {reply : OriginReply} {m later : HeaderFetch}

/-- Without headers the reply has no body. -/
theorem agrees_empty_iff (missing : m.headersOk = false) (origin : OriginBody)
    (given : List UInt8) (complete : Prop) :
    (answerConnSecond m later q.garbage).Agrees q.resource origin given complete ↔
      q.Fits reply m later := by
  have code : (answerConnSecond m later q.garbage).code = 200 ↔
      (if later.curldone then later.curlHttpCode else q.garbage) = 200 := by
    unfold answerConnSecond HeaderFetch.fetchDone
    rw [if_neg (by simp [missing])]
    dsimp only
    rw [httpCodeOr500_eq_200]
    cases later.curldone with
    | true => rfl
    | false => rfl
  have empty : (answerConnSecond m later q.garbage).size = some 0 ∧
      (answerConnSecond m later q.garbage).reader = false := by
    unfold answerConnSecond
    rw [if_neg (by simp [missing])]
    exact ⟨rfl, rfl⟩
  unfold Fits
  rw [if_neg (by simp [missing]), ← code]
  constructor
  · intro agrees ok
    have size := (agrees.whole ok).1 0 empty.1
    exact List.length_eq_zero_iff.mp size.symm
  · intro none
    refine ⟨fun ok => ?_, fun reader => nomatch empty.2.symm.trans reader⟩
    have body : (answerConnSecond m later q.garbage).body given = [] := by
      unfold MhdResponse.body
      rw [empty.2]
      rfl
    rw [body, none ok, empty.1]
    exact ⟨fun size same => (Option.some.inj same).symm, List.prefix_rfl, fun _ => rfl⟩

theorem code_answerConnSecond (known : m.headersOk = true) (garbage : Nat) :
    (answerConnSecond m later garbage).code = 200 ↔
      later.curldone = false ∨ later.curlHttpCode = 200 := by
  unfold answerConnSecond HeaderFetch.fetchDone
  rw [if_pos known]
  dsimp only
  cases later.curldone with
  | true => simpa using httpCodeOr500_eq_200 later.curlHttpCode
  | false => simp

theorem size_answerConnSecond (known : m.headersOk = true) (garbage : Nat) :
    (answerConnSecond m later garbage).reader = true ∧
      (answerConnSecond m later garbage).size =
        contentLength ((m.headerValue "content-length").getD "") := by
  unfold answerConnSecond
  rw [if_pos known]
  exact ⟨rfl, rfl⟩

/-- Whatever happens to the fetch after the reply, both agree with what the server sends. -/
theorem agrees_reader_iff {s : HeaderRun} (known : m.headersOk = true)
    (delivers : s.Delivers reply q.resource) :
    (∀ actions last outs, Machine.run (HeaderRun.step reply) s actions = some (last, outs) →
        (answerConnSecond m s.fetch q.garbage).Agrees q.resource reply.body last.fetch.received
          last.fetch.Complete) ↔
      q.Fits reply m s.fetch := by
  obtain ⟨reader, size⟩ := @size_answerConnSecond m s.fetch known q.garbage
  have body (given : List UInt8) : (answerConnSecond m s.fetch q.garbage).body given =
      limited (contentLength ((m.headerValue "content-length").getD "")) given := by
    unfold MhdResponse.body
    rw [if_pos reader, size]
  have code := @code_answerConnSecond m s.fetch known q.garbage
  unfold Fits Whole
  rw [if_pos known]
  constructor
  · intro agrees
    have now := agrees [] s [] rfl
    refine ⟨fun start here => ?_, fun ok => ?_⟩
    · by_contra nonzero
      obtain ⟨-, announced, member, -⟩ := now.part reader start here (Nat.pos_of_ne_zero nonzero)
      exact contentRange_not_mem _ _ _ _ member
    · obtain ⟨whole, begun, ended⟩ := now.whole (code.mpr ok)
      rw [size] at whole
      rw [body] at begun ended
      refine ⟨whole, ?_⟩
      split
      · exact begun
      · rename_i fine
        cases done : s.fetch.curldone with
        | true =>
            have complete : s.fetch.Complete := ⟨done, by
              by_contra failed
              exact fine ⟨done, failed⟩⟩
            rw [← delivers.split, delivers.complete complete, List.append_nil]
            exact ended complete
        | false =>
            obtain ⟨actions, last, outs, ran, complete⟩ :=
              HeaderRun.exists_complete delivers done
            have delivers' := HeaderRun.delivers_of_run delivers ran
            have ended' := ((agrees actions last outs ran).whole (code.mpr ok)).2.2 complete
            rwa [body, ← List.append_nil last.fetch.received, ← delivers'.complete complete,
              delivers'.split] at ended'
  · rintro ⟨first, whole⟩ actions last outs ran
    refine ⟨fun ok => ?_, fun _ start here nonzero => ?_⟩
    · obtain ⟨length, contents⟩ := whole (code.mp ok)
      rw [size, body]
      refine ⟨length, ?_⟩
      split at contents
      · rename_i failed
        cases HeaderRun.eq_of_done failed.1 ran
        exact ⟨contents, fun complete => absurd complete.2 failed.2⟩
      · have delivers' := HeaderRun.delivers_of_run delivers ran
        rw [← contents, ← delivers'.split]
        refine ⟨limited_mono (List.prefix_append _ _), fun complete => ?_⟩
        rw [delivers'.complete complete, List.append_nil]
    · exact absurd (first start here) (Nat.pos_iff_ne_zero.mp nonzero)

theorem firstCall_started_iff (offset : Nat) :
    q.firstCall = .started offset ↔ processRange q.range = .ok offset := by
  unfold firstCall
  rw [answerConnFirst_get]
  cases processRange q.range with
  | error response => exact ⟨fun same => (nomatch same), fun same => nomatch same⟩
  | ok n =>
      constructor
      · rintro ⟨⟩
        rfl
      · rintro ⟨⟩
        rfl

theorem delivers_fetched {offset : Nat} {s later : HeaderRun}
    (fetched : q.fetched offset = some (s, later)) :
    later.Delivers (q.serve offset) q.resource := by
  unfold ProxyRequest.fetched at fetched
  obtain ⟨⟨s', outs⟩, before, fetched⟩ := Option.bind_eq_some_iff.mp fetched
  dsimp only at fetched
  split at fetched
  · obtain ⟨⟨later', outs'⟩, between, same⟩ := Option.bind_eq_some_iff.mp fetched
    cases same
    have start : (HeaderRun.start (q.serve offset) q.resource).Delivers (q.serve offset)
        q.resource := ⟨rfl, fun complete => nomatch complete.1⟩
    exact HeaderRun.delivers_of_run (HeaderRun.delivers_of_run start before) between
  · cases fetched

theorem replied_iff {offset : Nat} {s later : HeaderRun}
    (fetched : q.fetched offset = some (s, later)) :
    (∀ actions last outs,
      Machine.run (HeaderRun.step (q.serve offset)) later actions = some (last, outs) →
        (answerConnSecond s.fetch later.fetch q.garbage).Agrees q.resource (q.serve offset).body
          last.fetch.received last.fetch.Complete) ↔
      q.Fits (q.serve offset) s.fetch later.fetch := by
  cases known : s.fetch.headersOk with
  | true => exact agrees_reader_iff known (delivers_fetched fetched)
  | false =>
      constructor
      · exact fun agrees => (agrees_empty_iff known _ _ _).mp (agrees [] later [] rfl)
      · exact fun fits _ _ _ _ => (agrees_empty_iff known _ _ _).mpr fits

/-- A request gets a reply which agrees with the resource in exactly these cases. -/
theorem consistent_iff (q : ProxyRequest) : q.Consistent ↔ q.Meets := by
  have unsupported : q.unsupported = true → q.firstCall.sent = none := by
    intro bad
    unfold ProxyRequest.unsupported at bad
    unfold firstCall
    rw [answerConnFirst_get]
    cases parsed : processRange q.range with
    | error response => rfl
    | ok offset =>
        rw [parsed] at bad
        cases bad
  constructor
  · intro consistent
    refine ⟨?_, fun offset parsed s later fetched => ?_⟩
    · by_contra bad
      obtain ⟨response, sent, -⟩ := consistent.refused ((Bool.not_eq_false _).mp bad)
      rw [unsupported ((Bool.not_eq_false _).mp bad)] at sent
      cases sent
    · have started := (firstCall_started_iff offset).mpr parsed
      exact (replied_iff fetched).mp (consistent.replied offset started s later fetched)
  · rintro ⟨supported, fits⟩
    refine ⟨fun bad => (nomatch supported.symm.trans bad), fun offset started s later fetched => ?_⟩
    have parsed := (firstCall_started_iff offset).mp started
    exact (replied_iff fetched).mpr (fits offset parsed s later fetched)

/-- The reply for a closed range is never sent. A part is sent without its place, in a 200 reply
as long as the transfer goes on. When the server cannot be reached, there is a 200 reply which is
empty. -/
theorem not_consistent_replies :
    let serve (offset : Nat) : OriginReply :=
      { code := 206, lines := ["HTTP/1.1 206 Partial Content", "Content-Length: 2", ""]
        body := .part offset }
    let request (range : Option String) (before : List HeaderAct) : ProxyRequest :=
      { range, resource := [1, 2, 3, 4], serve, before, between := [] }
    let begun : List HeaderAct := [.header, .header, .header, .write 2]
    ¬ (request (some "bytes=0-1") []).Consistent ∧
      ¬ (request (some "bytes=2-") begun).Consistent ∧
      ¬ (request (some "bytes=2-") (begun ++ [.performed .ok])).Consistent ∧
      ¬ (request none [.performed .other]).Consistent := by
  intro serve request begun
  have part (before : List HeaderAct)
      (known : ((request (some "bytes=2-") before).fetched 2).any
        (fun states => states.1.fetch.headersOk) = true) :
      ¬ (request (some "bytes=2-") before).Consistent := by
    intro consistent
    obtain ⟨⟨s, later⟩, fetched, known⟩ := (Option.any_eq_true _ _).mp known
    have started := (firstCall_started_iff (q := request (some "bytes=2-") before) 2).mpr rfl
    have fits := (replied_iff fetched).mp (consistent.replied 2 started s later fetched)
    unfold Fits at fits
    rw [if_pos known] at fits
    exact absurd (fits.1 2 rfl) (by decide)
  refine ⟨fun consistent => ?_, part _ (by decide), part _ (by decide),
    fun consistent => ?_⟩
  · obtain ⟨response, sent, -⟩ := consistent.refused (by decide)
    have none : (request (some "bytes=0-1") []).firstCall.sent = none := by decide
    rw [none] at sent
    cases sent
  · have unreachable : ((request none [.performed .other]).fetched 0).any (fun states =>
        states.1.fetch.headersOk = false ∧ states.2.fetch.curldone = true ∧
          states.2.fetch.curlHttpCode = 200) = true := by decide
    obtain ⟨⟨s, later⟩, fetched, known⟩ := (Option.any_eq_true _ _).mp unreachable
    obtain ⟨missing, done, ok⟩ : s.fetch.headersOk = false ∧ later.fetch.curldone = true ∧
        later.fetch.curlHttpCode = 200 := of_decide_eq_true known
    have fits := (replied_iff fetched).mp (consistent.replied 0 (by decide) s later fetched)
    unfold Fits at fits
    rw [if_neg (by simp [missing]), if_pos done] at fits
    exact absurd (fits ok) (by decide)

end ProxyRequest

end Upmpdcli
