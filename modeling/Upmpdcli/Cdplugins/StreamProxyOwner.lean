import Upmpdcli.Cdplugins.StreamProxyReply

set_option autoImplicit false

/- Who deletes the content reader of a request: the callbacks of libmicrohttpd, and the references
to the response which owns the reader. -/
namespace Upmpdcli

/-- How far libmicrohttpd is with a request: the handler has not been called, is called again, has
queued a response, or has returned `MHD_NO`. -/
inductive RequestPhase
  | received
  | pending
  | replying
  | closing
  | finished
deriving DecidableEq

/-- A response object. The reader of one from a callback is freed with it. -/
structure ResponseObject where
  reader : Bool
  refs : Nat
deriving DecidableEq

/-- A request, its response object if there is one, and how often a reader has been allocated and
deleted. -/
structure ProxyExchange where
  phase : RequestPhase := .received
  con_cls : Bool := false
  response : Option ResponseObject := none
  allocated : Nat := 0
  deleted : Nat := 0
deriving DecidableEq

/-- Whether libmicrohttpd creates the response, and accepts it. -/
structure ResponseOutcome where
  created : Bool := true
  queued : Bool := true
deriving DecidableEq

/-- `MHD_RequestTerminationCode`. -/
inductive TerminationCode
  | completedOk
  | withError
  | timeoutReached
  | daemonShutdown
  | readError
  | clientAbort
deriving DecidableEq

namespace ProxyExchange

/-- What libmicrohttpd calls, with what the calls find. -/
inductive Callback
  | answerConnFirst (method : String) (range : Option String) (ret : UrlTransReturn) (url : String)
      (outcome : ResponseOutcome)
  | answerConnSecond (m later : HeaderFetch) (garbage : Nat) (outcome : ResponseOutcome)
  | requestCompleted (toe : TerminationCode)
deriving DecidableEq

def content_reader_free_callback (s : ProxyExchange) : ProxyExchange :=
  { s with deleted := s.deleted + 1 }

/-- `MHD_destroy_response`, which only drops a reference as long as there is another. -/
def destroyResponse (s : ProxyExchange) : ProxyExchange :=
  match s.response with
  | none => s
  | some response =>
      if 1 < response.refs then
        { s with response := some { response with refs := response.refs - 1 } }
      else if response.reader then content_reader_free_callback { s with response := none }
      else { s with response := none }

/-- `MHD_queue_response`: the connection takes a reference. -/
def queueResponse (s : ProxyExchange) (accepted : Bool) : ProxyExchange × Bool :=
  if accepted then
    ({ s with
        response := s.response.map fun response => { response with refs := response.refs + 1 } },
      true)
  else (s, false)

/-- The handler creates a response, queues it and drops its own reference. No response is not
accepted. -/
def respond (s : ProxyExchange) (response : MhdResponse) (outcome : ResponseOutcome) :
    ProxyExchange × Bool :=
  if outcome.created then
    let (s, ret) :=
      queueResponse { s with response := some { reader := response.reader, refs := 1 } }
        outcome.queued
    (s.destroyResponse, ret)
  else (s, false)

/-- The first call of the handler, and whether it returns `MHD_YES`. -/
def firstCall (s : ProxyExchange) (method : String) (range : Option String)
    (ret : UrlTransReturn) (url : String) (outcome : ResponseOutcome) : ProxyExchange × Bool :=
  match StreamProxy.answerConnFirst method range ret url with
  | .ended none ret => (s, ret)
  | .ended (some response) ret =>
      let (s, queued) := s.respond response outcome
      (s, ret && queued)
  | .started _ => ({ s with con_cls := true, allocated := s.allocated + 1 }, true)

def secondCall (s : ProxyExchange) (m later : HeaderFetch) (garbage : Nat)
    (outcome : ResponseOutcome) : ProxyExchange × Bool :=
  s.respond (StreamProxy.answerConnSecond m later garbage) outcome

/-- libmicrohttpd calls the handler again when it has returned `MHD_YES` without a response. -/
def handled (result : ProxyExchange × Bool) : ProxyExchange × Option Bool :=
  let phase :=
    if result.2 then if result.1.response.isSome then .replying else .pending else .closing
  ({ result.1 with phase }, some result.2)

/-- The end of a request. `requestCompleted` only writes to the log; the connection drops its
reference. -/
def completed (s : ProxyExchange) : ProxyExchange := { s.destroyResponse with phase := .finished }

/-- A request can be terminated at any time, but completed only by a reply. -/
def step (s : ProxyExchange) : Callback → Option (ProxyExchange × Option Bool)
  | .answerConnFirst method range ret url outcome =>
      if s.phase = .received then some (handled (s.firstCall method range ret url outcome))
      else none
  | .answerConnSecond m later garbage outcome =>
      if s.phase = .pending then some (handled (s.secondCall m later garbage outcome)) else none
  | .requestCompleted toe =>
      if s.phase ≠ .finished ∧ (toe = .completedOk → s.phase = .replying) then
        some (s.completed, none)
      else none

/-- Nobody has lost the reader: the second call comes, with headers and with a response for the
reader. -/
def HandsOver (s : ProxyExchange) : Callback → Prop
  | .answerConnFirst _ _ _ _ _ => True
  | .answerConnSecond m _ _ outcome => m.headersOk = true ∧ outcome.created = true
  | .requestCompleted _ => s.phase ≠ .pending

instance (s : ProxyExchange) : (callback : Callback) → Decidable (s.HandsOver callback)
  | .answerConnFirst _ _ _ _ _ => inferInstanceAs (Decidable True)
  | .answerConnSecond m _ _ outcome =>
      inferInstanceAs (Decidable (m.headersOk = true ∧ outcome.created = true))
  | .requestCompleted _ => inferInstanceAs (Decidable (s.phase ≠ .pending))

/-- The readers which the response deletes when it goes. -/
def owned (s : ProxyExchange) : Nat :=
  match s.response with
  | none => 0
  | some response => if response.reader then 1 else 0

/-- A response is only held by the connection, which owns nothing else. -/
structure Held (s : ProxyExchange) (deletions : Nat) : Prop where
  one : ∀ response, s.response = some response → response.refs = 1
  count : s.deleted + s.owned = deletions

variable {s t last : ProxyExchange} {callbacks : List Callback} {outs : List (Option Bool)}

/-- What is held when the request ends is deleted. -/
theorem Held.completed {deletions : Nat} (held : s.Held deletions) :
    s.completed.phase = .finished ∧ s.completed.deleted = deletions ∧
      s.completed.allocated = s.allocated := by
  obtain ⟨one, rfl⟩ := held
  unfold ProxyExchange.completed destroyResponse owned
  cases has : s.response with
  | none => exact ⟨rfl, rfl, rfl⟩
  | some response =>
      have last_one : ¬ 1 < response.refs := by rw [one response has]; omega
      dsimp only
      rw [if_neg last_one]
      split
      · exact ⟨rfl, rfl, rfl⟩
      · exact ⟨rfl, rfl, rfl⟩

theorem respond_queued (s : ProxyExchange) (response : MhdResponse) :
    s.respond response { created := true, queued := true } =
      ({ s with response := some { reader := response.reader, refs := 1 } }, true) := rfl

/-- A response which is not accepted goes at once, and the reader with it. -/
theorem respond_dropped (s : ProxyExchange) (response : MhdResponse) :
    s.respond response { created := true, queued := false } =
      ({ s with
          response := none
          deleted := s.deleted + if response.reader = true then 1 else 0 }, false) := by
  unfold respond queueResponse destroyResponse content_reader_free_callback
  cases response.reader with
  | false => rfl
  | true => rfl

theorem respond_none (s : ProxyExchange) (response : MhdResponse) (queued : Bool) :
    s.respond response { created := false, queued } = (s, false) := rfl

/-- A response for the reader owns it, wherever the response goes. -/
theorem held_respond (response : MhdResponse) (outcome : ResponseOutcome)
    (empty : s.response = none) :
    (s.respond response outcome).1.Held
        (s.deleted + if response.reader = true ∧ outcome.created = true then 1 else 0) ∧
      (s.respond response outcome).1.allocated = s.allocated ∧
      ((s.respond response outcome).2 = true →
        (s.respond response outcome).1.response.isSome = true) := by
  obtain ⟨created, queued⟩ := outcome
  cases created with
  | false =>
      rw [respond_none]
      refine ⟨⟨fun response has => ?_, ?_⟩, rfl, fun refused => Bool.noConfusion refused⟩
      · cases empty.symm.trans has
      · simp [owned, empty]
  | true =>
      cases queued with
      | true =>
          rw [respond_queued]
          refine ⟨⟨fun other has => ?_, ?_⟩, rfl, fun _ => rfl⟩
          · cases has
            rfl
          · simp [owned]
      | false =>
          rw [respond_dropped]
          refine ⟨⟨fun response has => ?_, ?_⟩, rfl, fun refused => Bool.noConfusion refused⟩
          · cases has
          · simp [owned]

theorem reader_answerConnSecond (m later : HeaderFetch) (garbage : Nat) :
    (StreamProxy.answerConnSecond m later garbage).reader = m.headersOk := by
  unfold StreamProxy.answerConnSecond
  cases m.headersOk with
  | false => rfl
  | true => rfl

/-- Nothing comes behind the end. -/
theorem run_of_finished (finish : s.phase = .finished)
    (ran : Machine.run step s callbacks = some (last, outs)) : callbacks = [] ∧ last = s := by
  cases callbacks with
  | nil =>
      cases ran
      exact ⟨rfl, rfl⟩
  | cons callback rest =>
      obtain ⟨next, out, _, taken, -, -⟩ := (Machine.run_cons_iff _ _ _ _ _).mp ran
      cases callback with
      | answerConnFirst => simp [step, finish] at taken
      | answerConnSecond => simp [step, finish] at taken
      | requestCompleted => simp [step, finish] at taken

/-- When the handler is not called any more there is only the end. -/
theorem run_of_handled (ending : s.phase = .replying ∨ s.phase = .closing)
    (ran : Machine.run step s callbacks = some (last, outs)) (finish : last.phase = .finished) :
    last = s.completed ∧ Machine.Along (fun s c _ _ => s.HandsOver c) step s callbacks := by
  cases callbacks with
  | nil =>
      cases ran
      rw [finish] at ending
      rcases ending with wrong | wrong <;> cases wrong
  | cons callback rest =>
      obtain ⟨next, out, _, taken, later, -⟩ := (Machine.run_cons_iff _ _ _ _ _).mp ran
      cases callback with
      | answerConnFirst => rcases ending with phase | phase <;> simp [step, phase] at taken
      | answerConnSecond => rcases ending with phase | phase <;> simp [step, phase] at taken
      | requestCompleted toe =>
          rw [Machine.along_cons_of_step taken]
          obtain ⟨-, same⟩ := Option.ite_none_right_eq_some.mp taken
          cases same
          obtain ⟨rfl, rfl⟩ := run_of_finished rfl later
          refine ⟨rfl, fun pending => ?_, trivial⟩
          rcases ending with phase | phase <;> cases phase.symm.trans pending

/-- The end of a request whose handler has returned, with a response or with `MHD_NO`. -/
theorem deleted_of_handled {result : ProxyExchange × Bool} {deletions : Nat}
    (held : result.1.Held deletions) (responds : result.2 = true → result.1.response.isSome = true)
    (ran : Machine.run step (handled result).1 callbacks = some (last, outs))
    (finish : last.phase = .finished) :
    last.deleted = deletions ∧ last.allocated = result.1.allocated ∧
      Machine.Along (fun s c _ _ => s.HandsOver c) step (handled result).1 callbacks := by
  have ending : (handled result).1.phase = .replying ∨ (handled result).1.phase = .closing := by
    unfold handled
    dsimp only
    split
    · rename_i returned
      rw [if_pos (responds returned)]
      exact .inl rfl
    · exact .inr rfl
  have still : (handled result).1.Held deletions := ⟨held.one, held.count⟩
  obtain ⟨rfl, along⟩ := run_of_handled ending ran finish
  obtain ⟨-, deleted, allocated⟩ := still.completed
  exact ⟨deleted, allocated, along⟩

/-- From the second call on. -/
theorem deleted_of_pending (pending : s.phase = .pending) (empty : s.response = none)
    (one : s.allocated = s.deleted + 1) (ran : Machine.run step s callbacks = some (last, outs))
    (finish : last.phase = .finished) :
    last.deleted = last.allocated ↔
      Machine.Along (fun s c _ _ => s.HandsOver c) step s callbacks := by
  cases callbacks with
  | nil =>
      cases ran
      cases pending.symm.trans finish
  | cons callback rest =>
      obtain ⟨next, out, _, taken, later, -⟩ := (Machine.run_cons_iff _ _ _ _ _).mp ran
      rw [Machine.along_cons_of_step taken]
      cases callback with
      | answerConnFirst => simp [step, pending] at taken
      | answerConnSecond m later' garbage outcome =>
          obtain ⟨-, same⟩ := Option.ite_none_right_eq_some.mp taken
          rw [Option.some.injEq] at same
          obtain ⟨held, allocated, responds⟩ := held_respond
            (StreamProxy.answerConnSecond m later' garbage) outcome empty
          obtain ⟨deleted, kept, along⟩ :=
            deleted_of_handled held responds (by rwa [← secondCall, same]) finish
          rw [deleted, kept, allocated, one, reader_answerConnSecond]
          rw [← secondCall, same] at along
          have agree : s.deleted + (if m.headersOk = true ∧ outcome.created = true then 1 else 0) =
              s.deleted + 1 ↔ m.headersOk = true ∧ outcome.created = true := by
            split
            · rename_i hands
              exact iff_of_true rfl hands
            · rename_i lost
              exact iff_of_false (by omega) lost
          rw [agree]
          exact ⟨fun hands => ⟨hands, along⟩, And.left⟩
      | requestCompleted toe =>
          obtain ⟨-, same⟩ := Option.ite_none_right_eq_some.mp taken
          cases same
          obtain ⟨rfl, rfl⟩ := run_of_finished rfl later
          refine iff_of_false ?_ fun along => along.1 pending
          have lost : s.completed.deleted ≠ s.completed.allocated := by
            simp only [completed, destroyResponse, empty]
            omega
          exact lost

theorem reader_processRange {range : Option String} {response : MhdResponse}
    (refused : StreamProxy.processRange range = .error response) : response.reader = false := by
  unfold StreamProxy.processRange at refused
  split at refused
  · cases refused
  · split at refused
    · split at refused
      · cases refused
        rfl
      · cases refused
    · cases refused
    · cases refused

/-- A first call which ends the request has no response for a reader, and fails without one. -/
theorem answerConnFirst_ended {method : String} {range : Option String} {ret : UrlTransReturn}
    {url : String} {queued : Option MhdResponse} {yes : Bool}
    (ended : StreamProxy.answerConnFirst method range ret url = .ended queued yes) :
    (queued = none → yes = false) ∧ ∀ response, queued = some response →
      response.reader = false := by
  unfold StreamProxy.answerConnFirst at ended
  split at ended
  · cases ended
    exact ⟨fun _ => rfl, fun _ none_there => (nomatch none_there)⟩
  · split at ended
    · rename_i response refused
      cases ended
      refine ⟨fun none_there => (nomatch none_there), fun _ same => ?_⟩
      cases same
      exact reader_processRange refused
    · split at ended
      · cases ended
        exact ⟨fun _ => rfl, fun _ none_there => (nomatch none_there)⟩
      · cases ended
        refine ⟨fun none_there => (nomatch none_there), fun _ same => ?_⟩
        cases same
        rfl
      · cases ended

/-- The first call leaves a reader, or a response without one, or nothing. -/
theorem firstCall_spec (method : String) (range : Option String) (ret : UrlTransReturn)
    (url : String) (outcome : ResponseOutcome) :
    firstCall {} method range ret url outcome = ({ con_cls := true, allocated := 1 }, true) ∨
      ∃ s yes, firstCall {} method range ret url outcome = (s, yes) ∧ s.Held 0 ∧
        s.allocated = 0 ∧ (yes = true → s.response.isSome = true) := by
  unfold firstCall
  cases call : StreamProxy.answerConnFirst method range ret url with
  | started offset => exact .inl rfl
  | ended queued yes =>
      obtain ⟨fails, no_reader⟩ := answerConnFirst_ended call
      cases queued with
      | none =>
          refine .inr ⟨{}, yes, rfl, ⟨fun _ none_there => (nomatch none_there), rfl⟩, rfl, ?_⟩
          rw [fails rfl]
          exact fun never => Bool.noConfusion never
      | some response =>
          obtain ⟨held, allocated, responds⟩ :=
            held_respond (s := {}) response outcome rfl
          rw [no_reader response rfl] at held
          refine .inr ⟨_, _, rfl, held, allocated, fun returned => responds ?_⟩
          exact (Bool.and_eq_true_iff.mp returned).2

/-- A request which has come to its end has deleted its reader, once, exactly if the handler was
called again, `waitForHeaders` returned true and the response was created. -/
theorem deleted_once_iff (callbacks : List Callback)
    (ran : Machine.run step {} callbacks = some (last, outs))
    (finish : last.phase = .finished) :
    last.deleted = last.allocated ↔
      Machine.Along (fun s c _ _ => s.HandsOver c) step {} callbacks := by
  cases callbacks with
  | nil =>
      cases ran
      cases finish
  | cons callback rest =>
      obtain ⟨next, out, _, taken, later, -⟩ := (Machine.run_cons_iff _ _ _ _ _).mp ran
      rw [Machine.along_cons_of_step taken]
      cases callback with
      | answerConnFirst method range ret url outcome =>
          have same : handled (firstCall {} method range ret url outcome) = (next, out) :=
            Option.some.inj taken
          rcases firstCall_spec method range ret url outcome with
            started | ⟨s, yes, ended, held, allocated, responds⟩
          · rw [started] at same
            cases same
            rw [deleted_of_pending rfl rfl rfl later finish]
            exact ⟨fun along => ⟨trivial, along⟩, And.right⟩
          · rw [ended] at same
            cases same
            obtain ⟨deleted, kept, along⟩ := deleted_of_handled held responds later finish
            exact iff_of_true (by rw [deleted, kept, allocated]) ⟨trivial, along⟩
      | answerConnSecond => cases taken
      | requestCompleted toe =>
          obtain ⟨-, same⟩ := Option.ite_none_right_eq_some.mp taken
          cases same
          obtain ⟨rfl, rfl⟩ := run_of_finished rfl later
          exact iff_of_true rfl ⟨fun pending => RequestPhase.noConfusion pending, trivial⟩

/-- A fetch which has its headers, and a reply which is sent to its end. -/
theorem deleted_once_reply :
    ∃ last outs, Machine.run step {}
        [.answerConnFirst "GET" none .proxy "" {},
          .answerConnSecond { headersOk := true } {} 0 {}, .requestCompleted .completedOk] =
            some (last, outs) ∧ last.deleted = last.allocated :=
  ⟨_, _, rfl, (deleted_once_iff [.answerConnFirst "GET" none .proxy "" {},
    .answerConnSecond { headersOk := true } {} 0 {}, .requestCompleted .completedOk]
      rfl rfl).mpr (by decide)⟩

/-- The client goes away before the handler is called again. -/
theorem abort_leaks :
    ∃ last outs, Machine.run step {}
        [.answerConnFirst "GET" none .proxy "" {}, .requestCompleted .clientAbort] =
          some (last, outs) ∧ last.phase = .finished ∧ last.deleted ≠ last.allocated :=
  ⟨_, _, rfl, rfl, by decide⟩

end ProxyExchange

end Upmpdcli
