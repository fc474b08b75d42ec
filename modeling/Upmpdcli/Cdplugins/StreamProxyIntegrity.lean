import Upmpdcli.Cdplugins.StreamProxy

set_option autoImplicit false

namespace Upmpdcli

/-- What the call in progress has copied and not returned yet. -/
def Call.obuf : Call → List UInt8
  | .reading _ obuf | .holding _ obuf _ => obuf
  | _ => []

/-- What it holds in a buffer taken off the queue. -/
def Call.hand : Call → List UInt8
  | .holding _ _ abuf => abuf.unread
  | _ => []

/-- The reader may still take from the queue of the current transfer. -/
def Call.taking : Call → Bool
  | .outside | .reading _ _ | .holding _ _ _ => true
  | .joining _ | .ended _ => false

/-- It is in the copy loop. -/
def Call.looping : Call → Bool
  | .reading _ _ | .holding _ _ _ => true
  | .outside | .joining _ | .ended _ => false

namespace ContentReader

open CurlFetch

variable {origin : List UInt8} {offset : Nat} {s t : ContentReader}

def got (s : ContentReader) : List UInt8 := s.sent ++ s.call.obuf

/-- `got`, followed by what the reader can still copy without the fetch thread. -/
def held (s : ContentReader) : List UInt8 :=
  s.got ++ s.call.hand ++ content s.fetcher.outqueue.queue

/-- No buffer of the queue is the end mark. -/
def Full (queue : List ABuffer) : Prop := ∀ buf ∈ queue, buf.bytes ≠ 0

/-- How what was returned, what is in the hand-over and what is still to come make up the
stream, at each point of the fetch thread. -/
def Flow (origin wanted got held : List UInt8) (fetcher : CurlFetch) : Worker → Prop
  | .entered =>
      held ++ fetcher.headbuf.data ++ origin.drop fetcher.setRange.asked = wanted ∧
        Full fetcher.outqueue.queue
  | .performing rest =>
      held ++ fetcher.headbuf.data ++ rest = wanted ∧ Full fetcher.outqueue.queue
  | .closing =>
      held <+: wanted ∧ (fetcher.curlCode = .ok → held = wanted) ∧ Full fetcher.outqueue.queue
  | .waiting =>
      held = wanted ∧ ∃ datas, fetcher.outqueue.queue = datas ++ [.alloc 0] ∧ Full datas
  | .exited => got <+: wanted

/-- The invariant of a transfer whose restarts all resume where the client stands. -/
structure Sound (origin : List UInt8) (offset : Nat) (s : ContentReader) : Prop where
  sent : s.sent <+: origin.drop offset
  complete : s.normalEOS = true → s.sent = origin.drop offset
  ended : s.call = .ended true → s.normalEOS = true
  looping : s.call.looping = true → s.normalEOS = false
  first : s.sent = [] → s.fetcher.setRange.asked = offset
  ranged : s.worker ≠ .entered → s.fetcher.setRange.asked = s.fetcher.asked
  drained : s.worker = .closing ∨ s.worker = .waiting ∨ s.worker = .exited →
    s.fetcher.headbuf.data = []
  terminated : s.fetcher.outqueue.ok = true ↔ s.worker ≠ .exited
  flow : s.normalEOS = false → s.call.taking = true →
    Flow origin (origin.drop offset) s.got s.held s.fetcher s.worker

theorem Flow.got_within {origin wanted got held : List UInt8} {fetcher : CurlFetch}
    {worker : Worker} (flow : Flow origin wanted got held fetcher worker)
    (within : got <+: held) : got <+: wanted := by
  cases worker with
  | entered =>
      rw [← flow.1, List.append_assoc]
      exact within.trans (List.prefix_append _ _)
  | performing rest =>
      rw [← flow.1, List.append_assoc]
      exact within.trans (List.prefix_append _ _)
  | closing => exact within.trans flow.1
  | waiting => exact flow.1 ▸ within
  | exited => exact flow

theorem got_within_held (s : ContentReader) : s.got <+: s.held := by
  rw [held, List.append_assoc]
  exact List.prefix_append _ _

@[simp] theorem asked_setRange_setRange (m : CurlFetch) :
    m.setRange.setRange.asked = m.setRange.asked := by
  by_cases zero : m.startoffset = 0 <;> simp [setRange, asked, zero]

theorem Sound.perform (sound : Sound origin offset s) (taken : s.perform origin = some t) :
    Sound origin offset t := by
  unfold ContentReader.perform at taken
  split at taken
  · rename_i entered
    cases taken
    refine ⟨sound.sent, sound.complete, sound.ended, sound.looping, ?_, ?_, by simp, ?_, ?_⟩
    · simpa using sound.first
    · simp
    · simpa [entered, setRange] using sound.terminated
    · intro running taking
      have flow := sound.flow running taking
      rw [entered] at flow
      exact flow
  · cases taken

theorem Sound.write {count : Nat} (sound : Sound origin offset s)
    (taken : s.write count = some t) : Sound origin offset t := by
  unfold ContentReader.write at taken
  split at taken
  · rename_i rest performing
    split at taken
    · rename_i within
      have alive : s.fetcher.outqueue.ok = true := sound.terminated.mpr (by simp [performing])
      have chunk : rest.take count ≠ [] := by
        rw [ne_eq, List.take_eq_nil_iff]
        rintro (none | none)
        · omega
        · simp [none] at within
          omega
      obtain ⟨datas, rqueue, headbuf, total, run, same, full⟩ :=
        s.fetcher.curlWriteCB_of_ok (rest.take count) alive chunk
      rw [run] at taken
      cases taken
      have ranged := sound.ranged (by simp [performing])
      refine ⟨sound.sent, sound.complete, sound.ended, sound.looping, sound.first, fun _ => ranged, by simp, ?_, ?_⟩
      · simpa [queued] using alive
      · intro running taking
        have flow := sound.flow running taking
        rw [performing] at flow
        refine ⟨?_, ?_⟩
        · calc
            _ = s.held ++ (content datas ++ headbuf.data) ++ rest.drop count := by
              simp only [held, got, queued, content_append, List.append_assoc]
            _ = s.held ++ s.fetcher.headbuf.data ++ (rest.take count ++ rest.drop count) := by
              rw [same]
              simp only [List.append_assoc]
            _ = origin.drop offset := by rw [List.take_append_drop, flow.1]
        · intro buf member
          rcases List.mem_append.mp member with old | new
          · exact flow.2 buf old
          · exact full buf new
    · cases taken
  · cases taken

theorem Sound.performed {code : CURLcode} (sound : Sound origin offset s)
    (taken : s.performed code = some t) : Sound origin offset t := by
  unfold ContentReader.performed at taken
  split at taken
  · rename_i rest performing
    split at taken
    · rename_i success
      have alive : s.fetcher.outqueue.ok = true := sound.terminated.mpr (by simp [performing])
      obtain ⟨datas, rqueue, headbuf, total, run, empty, same, full⟩ :=
        s.fetcher.performed_of_ok code alive
      rw [run] at taken
      cases taken
      have ranged := sound.ranged (by simp [performing])
      refine ⟨sound.sent, sound.complete, sound.ended, sound.looping, sound.first, fun _ => ranged, ?_, ?_, ?_⟩
      · simpa [queued] using empty
      · simpa [queued] using alive
      · intro running taking
        have flow := sound.flow running taking
        rw [performing] at flow
        have moved : s.held ++ s.fetcher.headbuf.data = s.held ++ content datas := by rw [same]
        refine ⟨?_, ?_, ?_⟩
        · rw [← flow.1, moved]
          simp [held, got, queued]
        · intro fine
          rw [← flow.1, moved, success fine]
          simp [held, got, queued]
        · intro buf member
          rcases List.mem_append.mp member with old | new
          · exact flow.2 buf old
          · exact full buf new
    · cases taken
  · cases taken

theorem Sound.putEOS (sound : Sound origin offset s) (taken : s.putEOS = some t) :
    Sound origin offset t := by
  unfold ContentReader.putEOS at taken
  split at taken
  · rename_i closing
    cases taken
    have alive : s.fetcher.outqueue.ok = true := sound.terminated.mpr (by simp [closing.1])
    refine ⟨sound.sent, sound.complete, sound.ended, sound.looping, sound.first, ?_, ?_, ?_, ?_⟩
    · intro
      exact sound.ranged (by simp [closing.1])
    · intro
      exact sound.drained (.inl closing.1)
    · simp [BufXChange.put, alive]
    · intro running taking
      have flow := sound.flow running taking
      rw [closing.1] at flow
      refine ⟨?_, s.fetcher.outqueue.queue, ?_, flow.2.2⟩
      · rw [← flow.2.1 closing.2]
        simp [held, got, BufXChange.put, alive]
      · simp [BufXChange.put, alive]
  · cases taken

theorem Sound.setTerminate (sound : Sound origin offset s) (taken : s.setTerminate = some t) :
    Sound origin offset t := by
  unfold ContentReader.setTerminate at taken
  split at taken
  · rename_i leaving
    cases taken
    have active : s.worker = .closing ∨ s.worker = .waiting := leaving.imp And.left And.left
    refine ⟨sound.sent, sound.complete, sound.ended, sound.looping, sound.first, ?_, ?_, by simp, ?_⟩
    · intro
      exact sound.ranged (by rcases active with at_ | at_ <;> simp [at_])
    · intro
      exact sound.drained (active.imp_right .inl)
    · intro running taking
      exact (sound.flow running taking).got_within s.got_within_held
  · cases taken

theorem Sound.contentRead {max : Nat} (sound : Sound origin offset s)
    (taken : s.contentRead max = some t) : Sound origin offset t := by
  unfold ContentReader.contentRead at taken
  split at taken
  · rename_i outside
    split at taken
    · cases taken
      refine ⟨sound.sent, sound.complete, ?_, ?_, sound.first, sound.ranged, sound.drained,
        sound.terminated, ?_⟩
      · cases eos : s.normalEOS <;> simp
      · cases eos : s.normalEOS <;> simp [Call.looping]
      · intro running _
        have running : s.normalEOS = false := running
        have flow := sound.flow running (by simp [outside, Call.taking])
        simpa [running, got, held, outside, Call.obuf, Call.hand] using flow
    · cases taken
  · cases taken

/-- The end mark comes when everything else has been taken. -/
theorem Flow.of_end_mark {wanted got held : List UInt8} {fetcher : CurlFetch} {worker : Worker}
    {abuf : ABuffer} {rest : List ABuffer} (flow : Flow origin wanted got held fetcher worker)
    (alive : worker ≠ .exited) (first : fetcher.outqueue.queue = abuf :: rest)
    (mark : abuf.bytes = 0) : held = wanted ∧ content (abuf :: rest) = [] := by
  have only (full : Full fetcher.outqueue.queue) : False :=
    full abuf (by rw [first]; exact List.mem_cons_self) mark
  cases worker with
  | entered => exact (only flow.2).elim
  | performing rest => exact (only flow.2).elim
  | closing => exact (only flow.2.2).elim
  | waiting =>
      obtain ⟨datas, queue, full⟩ := flow.2
      rw [first] at queue
      cases datas with
      | nil =>
          cases queue
          exact ⟨flow.1, rfl⟩
      | cons data datas =>
          cases queue
          exact (full abuf List.mem_cons_self mark).elim
  | exited => exact (alive rfl).elim

/-- Moving a data buffer from the queue to the reader changes nothing else. -/
theorem Flow.of_data {wanted got held : List UInt8} {fetcher : CurlFetch} {worker : Worker}
    {abuf : ABuffer} {rest : List ABuffer} (flow : Flow origin wanted got held fetcher worker)
    (alive : worker ≠ .exited) (first : fetcher.outqueue.queue = abuf :: rest)
    (data : abuf.bytes ≠ 0) (got' : List UInt8) :
    Flow origin wanted got' held
      { fetcher with outqueue := { fetcher.outqueue with queue := rest } } worker := by
  have fewer (full : Full fetcher.outqueue.queue) : Full rest := fun buf member =>
    full buf (by rw [first]; exact List.mem_cons_of_mem _ member)
  cases worker with
  | entered => exact ⟨flow.1, fewer flow.2⟩
  | performing rest => exact ⟨flow.1, fewer flow.2⟩
  | closing => exact ⟨flow.1, flow.2.1, fewer flow.2.2⟩
  | waiting =>
      obtain ⟨same, datas, queue, full⟩ := flow
      rw [first] at queue
      cases datas with
      | nil =>
          cases queue
          exact (data rfl).elim
      | cons first datas =>
          cases queue
          exact ⟨same, datas, rfl, fun buf member => full buf (List.mem_cons_of_mem _ member)⟩
  | exited => exact (alive rfl).elim

theorem Sound.flow_of_looping (sound : Sound origin offset s) (looping : s.call.looping = true) :
    Flow origin (origin.drop offset) s.got s.held s.fetcher s.worker := by
  refine sound.flow (sound.looping looping) ?_
  cases call : s.call <;> simp_all [Call.looping, Call.taking]

theorem Sound.copied (sound : Sound origin offset s) (taken : s.copied = some t) :
    Sound origin offset t := by
  unfold ContentReader.copied at taken
  split at taken
  · rename_i max obuf reading
    have looping : s.call.looping = true := by rw [reading]; rfl
    have flow := sound.flow_of_looping looping
    have all := flow.got_within s.got_within_held
    simp only [got, reading, Call.obuf] at all
    split at taken
    · cases taken
      refine ⟨all, ?_, by simp [returned], by simp [returned, Call.looping], ?_, sound.ranged,
        sound.drained, sound.terminated, ?_⟩
      · intro eos
        cases (sound.looping looping).symm.trans eos
      · intro empty
        exact sound.first (List.append_eq_nil_iff.mp empty).1
      · intro _ _
        simpa [returned, got, held, reading, Call.obuf, Call.hand] using flow
    · cases taken
  · cases taken

theorem Sound.take (sound : Sound origin offset s) (taken : s.take = some t) :
    Sound origin offset t := by
  unfold ContentReader.take at taken
  split at taken
  · rename_i max obuf reading
    have looping : s.call.looping = true := by rw [reading]; rfl
    have flow := sound.flow_of_looping looping
    split at taken
    · split at taken
      · cases taken
      · rename_i abuf queue found
        obtain ⟨ok, rest, first, rfl⟩ := (BufXChange.take_eq_some_iff _ _ _).mp found
        have alive := sound.terminated.mp ok
        have held_eq : s.held = s.sent ++ obuf ++ (abuf.unread ++ content rest) := by
          simp [held, got, reading, Call.obuf, Call.hand, first]
        by_cases mark : abuf.bytes = 0
        · obtain ⟨whole, empty⟩ := flow.of_end_mark alive first mark
          rw [held_eq, ← content_cons, empty, List.append_nil] at whole
          simp only [mark, ↓reduceIte] at taken
          split at taken
          · rename_i none
            cases taken
            rw [none, List.append_nil] at whole
            exact ⟨sound.sent, fun _ => whole, fun _ => rfl, by simp [Call.looping], sound.first,
              sound.ranged, sound.drained, sound.terminated, by simp⟩
          · cases taken
            refine ⟨whole ▸ List.prefix_rfl, fun _ => whole, by simp [returned],
              by simp [returned, Call.looping], ?_, sound.ranged, sound.drained, sound.terminated,
              by simp [returned]⟩
            intro none
            exact sound.first (List.append_eq_nil_iff.mp none).1
        · simp only [mark, ↓reduceIte, Option.some.injEq] at taken
          subst taken
          refine ⟨sound.sent, sound.complete, by simp, fun _ => sound.looping looping, sound.first,
            sound.ranged, sound.drained, sound.terminated, ?_⟩
          intro _ _
          have moved := flow.of_data alive first mark
            (s.sent ++ (obuf ++ abuf.unread.take (abuf.tocopy (max - obuf.length))))
          rw [← abuf.take_append_unread_advance (max - obuf.length)] at held_eq
          rw [held_eq] at moved
          simpa [got, held, Call.obuf, Call.hand] using moved
    · cases taken
  · cases taken

theorem Sound.takeFailed {garbage : FetchStatus} (sound : Sound origin offset s)
    (taken : s.takeFailed garbage = some t) : Sound origin offset t := by
  unfold ContentReader.takeFailed at taken
  split at taken
  · split at taken
    · split at taken <;> cases taken
      · exact ⟨sound.sent, sound.complete, by simp, by simp [Call.looping], sound.first, sound.ranged,
          sound.drained, sound.terminated, by simp [Call.taking]⟩
      · exact ⟨sound.sent, sound.complete, by simp, by simp [Call.looping], sound.first, sound.ranged,
          sound.drained, sound.terminated, by simp [Call.taking]⟩
    · cases taken
  · cases taken

/-- Giving a buffer back changes only what is in front of the queue. -/
theorem Flow.of_front {wanted got held : List UInt8} {fetcher : CurlFetch} {worker : Worker}
    (flow : Flow origin wanted got held fetcher worker) (queue : BufXChange ABuffer)
    (front : List ABuffer) (full : Full front) (got' : List UInt8)
    (pushed : worker ≠ .exited → queue.queue = front ++ fetcher.outqueue.queue)
    (kept : worker = .exited → got' = got) :
    Flow origin wanted got' held { fetcher with outqueue := queue } worker := by
  have more (old : List ABuffer) (rest : Full old) : Full (front ++ old) := fun buf member =>
    (List.mem_append.mp member).elim (full buf) (rest buf)
  cases worker with
  | entered => exact ⟨flow.1, by simpa [pushed] using more _ flow.2⟩
  | performing rest => exact ⟨flow.1, by simpa [pushed] using more _ flow.2⟩
  | closing => exact ⟨flow.1, flow.2.1, by simpa [pushed] using more _ flow.2.2⟩
  | waiting =>
      obtain ⟨same, datas, before, rest⟩ := flow
      exact ⟨same, front ++ datas, by simp [pushed, before], more _ rest⟩
  | exited => exact kept rfl ▸ flow

theorem Sound.giveBack (sound : Sound origin offset s) (taken : s.giveBack = some t) :
    Sound origin offset t := by
  unfold ContentReader.giveBack at taken
  split at taken
  · rename_i max obuf abuf holding
    have looping : s.call.looping = true := by rw [holding]; rfl
    have flow := sound.flow_of_looping looping
    have held_eq : s.held =
        s.sent ++ obuf ++ abuf.unread ++ content s.fetcher.outqueue.queue := by
      simp [held, got, holding, Call.obuf, Call.hand]
    have got_eq : s.got = s.sent ++ obuf := by simp [got, holding, Call.obuf]
    have alive := sound.terminated
    by_cases consumed : abuf.bytes ≤ abuf.curoffs
    · simp only [consumed, ↓reduceIte, Option.some.injEq] at taken
      subst taken
      refine ⟨sound.sent, sound.complete, by simp, fun _ => sound.looping looping, sound.first,
        sound.ranged, sound.drained, alive, fun _ _ => ?_⟩
      have empty : abuf.unread = [] := List.drop_eq_nil_of_le consumed
      have moved := flow.of_front (s.fetcher.outqueue.recycle abuf) [] (by simp [Full]) s.got
        (fun _ => rfl) (fun _ => rfl)
      rw [held_eq, got_eq, empty] at moved
      simpa [got, held, Call.obuf, Call.hand] using moved
    · simp only [consumed, ↓reduceIte, Option.some.injEq] at taken
      subst taken
      by_cases ok : s.fetcher.outqueue.ok = true
      · have put := (BufXChange.untake_eq_some_iff _ _ abuf).mpr ⟨ok, rfl⟩
        rw [put]
        refine ⟨sound.sent, sound.complete, by simp, fun _ => sound.looping looping, sound.first,
          sound.ranged, sound.drained, alive, fun _ _ => ?_⟩
        have full : Full [abuf] := by
          intro buf member
          rw [List.mem_singleton.mp member]
          omega
        have moved := flow.of_front { s.fetcher.outqueue with queue := abuf :: _ } [abuf] full s.got
          (fun _ => rfl) (fun _ => rfl)
        rw [held_eq, got_eq] at moved
        simpa [got, held, Call.obuf, Call.hand] using moved
      · have exited : s.worker = .exited := by simpa [ok] using alive
        have lost : s.fetcher.outqueue.untake abuf = none := by simp [BufXChange.untake, ok]
        rw [lost]
        refine ⟨sound.sent, sound.complete, by simp, fun _ => sound.looping looping, sound.first,
          sound.ranged, sound.drained, alive, fun _ _ => ?_⟩
        rw [exited, got_eq] at flow
        simpa [exited, got, Call.obuf, Flow] using flow
  · cases taken

/-- A retry asks the server for what follows the bytes the client has. The restart drops
the `totcnt` bytes this call has copied, and its offset is counted from the first byte
sent, a zero one leaving the range of the previous transfer. -/
def Resumes (offset : Nat) (s : ContentReader) : Prop :=
  match s.call with
  | .joining totcnt => totcnt = offset ∨ s.sent.length + totcnt = 0
  | _ => True

instance (offset : Nat) (s : ContentReader) : Decidable (s.Resumes offset) := by
  unfold Resumes
  split <;> infer_instance

theorem Sound.restart (sound : Sound origin offset s) (resumes : s.Resumes offset)
    (taken : s.restart = some t) : Sound origin offset t := by
  unfold ContentReader.restart at taken
  split at taken
  · rename_i totcnt joining
    split at taken
    · rename_i exited
      cases taken
      have asked : (s.fetcher.reset.start (s.sent.length + totcnt)).setRange.asked =
          offset + s.sent.length := by
        simp only [Resumes, joining] at resumes
        by_cases zero : s.sent.length + totcnt = 0
        · have none : s.sent = [] := List.length_eq_zero_iff.mp (by omega)
          calc
            _ = s.fetcher.asked := by simp [start, reset, setRange, CurlFetch.asked, zero]
            _ = offset := by rw [← sound.ranged (by simp [exited]), sound.first none]
            _ = offset + s.sent.length := by rw [none, List.length_nil, Nat.add_zero]
        · have same : totcnt = offset := resumes.resolve_right zero
          rw [same] at zero ⊢
          simp only [start, reset, setRange, CurlFetch.asked, ne_eq, zero, not_false_eq_true,
            ↓reduceIte, Option.getD_some]
          exact Nat.add_comm _ _
      have empty : s.fetcher.headbuf.data = [] := sound.drained (.inr (.inr exited))
      refine ⟨sound.sent, sound.complete, by simp, by simp [Call.looping], ?_, by simp, by simp,
        by simp [start, reset], ?_⟩
      · intro none
        have none : s.sent = [] := none
        exact asked.trans (by rw [none, List.length_nil, Nat.add_zero])
      · intro _ _
        refine ⟨?_, by simp [Full, start, reset]⟩
        obtain ⟨rest, whole⟩ := sound.sent
        have later : origin.drop (offset + s.sent.length) = rest := by
          rw [← List.drop_drop, ← whole, List.drop_left]
        rw [asked, later]
        simpa [held, got, Call.obuf, Call.hand, start, reset, empty] using whole
    · cases taken
  · cases taken

/-- The guard of a run: its restarts resume. -/
def ResumesAt (offset : Nat) (s : ContentReader) (action : Action) (_ : ContentReader)
    (_ : Unit) : Prop :=
  action = .restart → s.Resumes offset

instance (offset : Nat) (s : ContentReader) (action : Action) (t : ContentReader) (out : Unit) :
    Decidable (ResumesAt offset s action t out) :=
  inferInstanceAs (Decidable (_ → _))

theorem Sound.step {action : Action} {out : Unit} (sound : Sound origin offset s)
    (resumes : ResumesAt offset s action t out)
    (taken : ContentReader.step origin s action = some (t, out)) : Sound origin offset t := by
  simp only [ContentReader.step, Option.map_eq_some_iff, Prod.mk.injEq, and_true] at taken
  obtain ⟨next, taken, rfl⟩ := taken
  cases action with
  | perform => exact sound.perform taken
  | write count => exact sound.write taken
  | performed code => exact sound.performed taken
  | putEOS => exact sound.putEOS taken
  | setTerminate => exact sound.setTerminate taken
  | contentRead max => exact sound.contentRead taken
  | take => exact sound.take taken
  | takeFailed garbage => exact sound.takeFailed taken
  | giveBack => exact sound.giveBack taken
  | copied => exact sound.copied taken
  | restart => exact sound.restart (resumes rfl) taken

theorem sound_answerConn (origin : List UInt8) (offset : Nat) :
    Sound origin offset (answerConn offset) := by
  refine ⟨by simp [answerConn], by simp [answerConn], by simp [answerConn], by simp [answerConn],
    ?_, by simp [answerConn], by simp [answerConn], by simp [answerConn, start], ?_⟩
  · intro _
    by_cases zero : offset = 0 <;> simp [answerConn, start, setRange, asked, zero]
  · intro _ _
    by_cases zero : offset = 0 <;>
      simp [answerConn, start, setRange, asked, zero, Flow, Full, held, got, Call.obuf, Call.hand,
        ABuffer.alloc]

/-- The client of this run gets a prefix of what it asked for, and all of it when the
transfer ends normally. -/
def Faithful (origin : List UInt8) (offset : Nat) (actions : List Action) : Prop :=
  ∀ last outs, Machine.run (ContentReader.step origin) (answerConn offset) actions = some (last, outs) →
    last.sent <+: origin.drop offset ∧ (last.call = .ended true → last.sent = origin.drop offset)

theorem faithful_of_resuming_restarts (origin : List UInt8) (offset : Nat) (actions : List Action)
    (guarded : Machine.Along (ResumesAt offset) (ContentReader.step origin) (answerConn offset)
      actions) : Faithful origin offset actions := by
  intro last outs ran
  have preserve (s : ContentReader) (action : Action) (t : ContentReader) (out : Unit)
      (sound : Sound origin offset s) (resumes : ResumesAt offset s action t out)
      (taken : ContentReader.step origin s action = some (t, out)) : Sound origin offset t :=
    sound.step resumes taken
  have sound := Machine.invariant_of_run preserve _ last actions outs
    (sound_answerConn origin offset) guarded ran
  exact ⟨sound.sent, fun normal => sound.complete (sound.ended normal)⟩

/-- A transfer which fails between two `contentRead` calls, and is resumed where it was. -/
theorem faithful_resumed_transfer :
    ∃ actions, (Machine.run (ContentReader.step [1, 2, 3, 4]) (answerConn 0) actions).isSome = true ∧
      Faithful [1, 2, 3, 4] 0 actions :=
  ⟨[.perform, .write 2, .performed .recvError, .contentRead 2, .take, .giveBack, .copied,
      .setTerminate, .contentRead 2, .takeFailed .fetchOk, .restart, .perform, .write 2,
      .performed .ok, .putEOS, .contentRead 2, .take, .giveBack, .copied, .contentRead 2, .take],
    by decide, faithful_of_resuming_restarts _ _ _ (by decide)⟩

/-- The transfer fails while a call has copied two bytes: the client never gets them. And
with a range, the restart goes back to the top of the file. -/
theorem restart_not_faithful :
    ¬ Faithful [1, 2, 3, 4] 0
        [.perform, .write 2, .performed .recvError, .contentRead 4, .take, .giveBack,
          .setTerminate, .takeFailed .fetchOk, .restart, .perform, .write 2, .performed .ok,
          .putEOS, .contentRead 4, .take, .giveBack, .take] ∧
      ¬ Faithful [1, 2, 3, 4] 1
        [.perform, .write 2, .performed .recvError, .contentRead 2, .take, .giveBack, .copied,
          .setTerminate, .contentRead 2, .takeFailed .fetchOk, .restart, .perform, .write 2,
          .performed .ok, .putEOS, .contentRead 2, .take, .giveBack, .copied] := by
  constructor
  · intro faithful
    exact absurd (faithful _ _ rfl).1 (by decide)
  · intro faithful
    exact absurd (faithful _ _ rfl).1 (by decide)

end ContentReader

end Upmpdcli
