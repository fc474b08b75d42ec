import Upmpdcli.Cdplugins.StreamProxyThreads

set_option autoImplicit false

namespace Upmpdcli

/-- The fetch thread does not take `curlmutex` any more. -/
def Worker.past : Worker → Bool
  | .closing | .waiting | .exited => true
  | .entered | .performing _ => false

def Call.isJoining : Call → Bool
  | .joining _ => true
  | .outside | .reading _ _ | .holding _ _ _ | .ended _ => false

@[simp] theorem Wait.notify_ne_asleep (wait : Wait) : wait.notify ≠ .asleep := by
  cases wait <;> simp [Wait.notify]

@[simp] theorem Wait.notify_eq_awake_iff (wait : Wait) : wait.notify = .awake ↔ wait = .awake := by
  cases wait <;> simp [Wait.notify]

namespace ContentReader

variable {s t : ContentReader}

/-- The end mark does not go to a terminated queue. -/
theorem putEOS_eq (taken : s.putEOS = some t) :
    s.worker = .closing ∧ s.fetcher.curlCode = .ok ∧ ∃ datas,
      t = { s with
        fetcher := { s.fetcher with
          outqueue := { s.fetcher.outqueue with queue := s.fetcher.outqueue.queue ++ datas } }
        worker := .waiting } := by
  unfold putEOS at taken
  split at taken
  · rename_i closing
    cases taken
    refine ⟨closing.1, closing.2, ?_⟩
    cases alive : s.fetcher.outqueue.ok with
    | true => exact ⟨[.alloc 0], by simp [BufXChange.put, alive]⟩
    | false =>
        have refused : s.fetcher.outqueue.put (.alloc 0) = none := by
          simp [BufXChange.put, alive]
        exact ⟨[], by rw [refused, List.append_nil]; rfl⟩
  · cases taken

theorem contentRead_eq {max : Nat} (taken : s.contentRead max = some t) :
    s.call = .outside ∧ ∃ call, t = { s with call := call } ∧ call.isJoining = false := by
  unfold contentRead at taken
  split at taken
  · rename_i outside
    split at taken
    · cases taken
      refine ⟨outside, _, rfl, ?_⟩
      split <;> rfl
    · cases taken
  · cases taken

/-- `take` moves the first buffer of the queue. -/
theorem take_eq (taken : s.take = some t) :
    ∃ rest normalEOS call sent, s.fetcher.outqueue.ok = true ∧
      t = { s with
        fetcher := { s.fetcher with outqueue := { s.fetcher.outqueue with queue := rest } }
        normalEOS := normalEOS
        call := call
        sent := sent } ∧ call.isJoining = false := by
  unfold take at taken
  split at taken
  · split at taken
    · split at taken
      · cases taken
      · rename_i abuf queue found
        obtain ⟨ok, rest, first, rfl⟩ := (BufXChange.take_eq_some_iff _ _ _).mp found
        dsimp only at taken
        split at taken
        · split at taken
          · cases taken
            exact ⟨rest, _, _, _, ok, rfl, rfl⟩
          · cases taken
            exact ⟨rest, _, _, _, ok, rfl, rfl⟩
        · cases taken
          exact ⟨rest, _, _, _, ok, rfl, rfl⟩
    · cases taken
  · cases taken

/-- The reader restarts a transfer which is done on a retryable error only. -/
theorem takeFailed_eq {garbage : FetchStatus} (taken : s.takeFailed garbage = some t) :
    ∃ call, t = { s with call := call } ∧
      (call.isJoining = true → s.fetcher.curldone = true → s.fetcher.curlCode ≠ .ok) := by
  unfold takeFailed at taken
  split at taken
  · split at taken
    · split at taken
      · rename_i retryable
        cases taken
        refine ⟨_, rfl, ?_⟩
        intro _ done fine
        simp [CurlFetch.fetchDone, done, fine, CurlFetch.status] at retryable
      · cases taken
        exact ⟨_, rfl, by simp [Call.isJoining]⟩
    · cases taken
  · cases taken

/-- The buffer in hand goes to one of the two queues. -/
theorem giveBack_eq (taken : s.giveBack = some t) :
    (∃ max obuf abuf, s.call = .holding max obuf abuf) ∧ ∃ queue rqueue max obuf,
      t = { s with
        fetcher := { s.fetcher with
          outqueue := { s.fetcher.outqueue with queue := queue, rqueue := rqueue } }
        call := .reading max obuf } ∧
      (s.fetcher.outqueue.queue ≠ [] → queue ≠ []) := by
  unfold giveBack at taken
  split at taken
  · rename_i max obuf abuf holding
    refine ⟨⟨max, obuf, abuf, holding⟩, ?_⟩
    cases taken
    split
    · exact ⟨s.fetcher.outqueue.queue, _, max, obuf, rfl, id⟩
    · cases alive : s.fetcher.outqueue.ok with
      | true =>
          refine ⟨abuf :: s.fetcher.outqueue.queue, s.fetcher.outqueue.rqueue, max, obuf, ?_,
            by simp⟩
          simp [BufXChange.untake, alive]
      | false =>
          have refused : s.fetcher.outqueue.untake abuf = none := by
            simp [BufXChange.untake, alive]
          exact ⟨s.fetcher.outqueue.queue, s.fetcher.outqueue.rqueue, max, obuf, by rw [refused]; rfl,
            id⟩
  · cases taken

theorem copied_eq (taken : s.copied = some t) :
    (∃ max obuf, s.call = .reading max obuf ∧ max ≤ obuf.length) ∧
      ∃ sent, t = { s with call := .outside, sent := sent } := by
  unfold copied at taken
  split at taken
  · rename_i max obuf reading
    split at taken
    · rename_i full
      cases taken
      exact ⟨⟨max, obuf, reading, full⟩, _, rfl⟩
    · cases taken
  · cases taken

theorem restart_eq (taken : s.restart = some t) :
    s.call.isJoining = true ∧ s.worker = .exited ∧ ∃ offset,
      t = { s with
        fetcher := s.fetcher.reset.start offset
        worker := .entered
        call := .outside } := by
  unfold restart at taken
  split at taken
  · rename_i totcnt joining
    split at taken
    · rename_i exited
      cases taken
      exact ⟨by rw [joining]; rfl, exited, _, rfl⟩
    · cases taken
  · cases taken

end ContentReader

namespace ProxyThreads

variable {origin : List UInt8} {s t : ProxyThreads}

/-- The connection thread joins the fetch thread while it holds the mutex which the fetch
thread still has to take. -/
def LockedOut (s : ProxyThreads) : Prop :=
  s.destructor = .joining ∧ s.reader.worker.past = false

/-- The connection thread waits for what the fetch thread has to do. -/
def Awaits (s : ProxyThreads) : Prop :=
  s.destructor = .joining ∨ s.reader.call.isJoining = true ∨ s.taker = .asleep ∨
    s.headers = .asleep

/-- The fetch thread is locked out, or waits for the queue to be emptied by a thread which
waits for it. -/
def Deadlocked (s : ProxyThreads) : Prop := s.LockedOut ∨ s.Awaits ∧ s.idler = .asleep

instance (s : ProxyThreads) : Decidable s.Deadlocked :=
  inferInstanceAs (Decidable ((_ ∧ _) ∨ (_ ∨ _ ∨ _ ∨ _) ∧ _))

/-- The reader is not destroyed before the fetch thread has left its last locked section,
and no transfer ends well while the connection thread is in `reset`. -/
def safe (s : ProxyThreads) : Action → Bool
  | .destroy => s.reader.worker.past
  | .final => !s.reader.call.isJoining || s.returned ≠ some .ok
  | _ => true

/-- The invariant of the runs with safe steps only. -/
structure Inv (s : ProxyThreads) : Prop where
  aborting : s.aborting = true → s.destructor ≠ .alive
  destroyed : s.destructor ≠ .alive → s.reader.worker.past = true ∧ s.outqueue.ok = false
  alive : s.reader.worker.past = false → s.outqueue.ok = true
  returned : s.returned ≠ none → ∃ rest, s.reader.worker = .performing rest
  done : s.reader.fetcher.curldone = s.reader.worker.past
  waiting : s.reader.worker = .waiting → s.curl = true ∧ s.reader.fetcher.curlCode = .ok
  joining : s.reader.call.isJoining = true →
    s.reader.worker ≠ .waiting ∧
      (s.reader.worker = .closing → s.curl = false ∨ s.reader.fetcher.curlCode ≠ .ok)
  idling : s.idler ≠ .awake → s.reader.worker = .waiting ∧ 0 < s.clientsWaiting
  idle : s.idler = .asleep → s.outqueue.ok = true ∧ s.outqueue.queue ≠ []
  taking : s.taker ≠ .awake → 0 < s.workersWaiting ∧
    ∃ max obuf, s.reader.call = .reading max obuf ∧ obuf.length < max
  taken : s.taker = .asleep → s.outqueue.ok = true ∧ s.outqueue.queue = []
  heading : s.headers = .asleep → s.reader.worker.past = true → s.curl = false

theorem inv_start (offset : Nat) : (start offset).Inv := by
  constructor <;> simp [start, ContentReader.answerConn, Worker.past, Call.isJoining,
    CurlFetch.start, outqueue]

/-- In these states nobody is stuck. -/
theorem Inv.not_deadlocked (inv : s.Inv) : ¬ s.Deadlocked := by
  rintro (⟨joining, early⟩ | ⟨awaits, asleep⟩)
  · have past := (inv.destroyed (by simp [joining])).1
    simp [early] at past
  · have waiting := (inv.idling (by simp [asleep])).1
    obtain ⟨ok, held⟩ := inv.idle asleep
    rcases awaits with joining | joining | taking | heading
    · have terminated := (inv.destroyed (by simp [joining])).2
      simp [ok] at terminated
    · exact (inv.joining joining).1 waiting
    · exact held (inv.taken taking).2
    · have none := inv.heading heading (by rw [waiting]; rfl)
      simp [(inv.waiting waiting).1] at none

/-- What a `put` leaves asleep was asleep before, with nothing put. -/
theorem Inv.putNotifies (inv : s.Inv) (datas : List ABuffer) (queue : BufXChange ABuffer)
    (more : queue.queue = s.outqueue.queue ++ datas) :
    (s.putNotifies queue ≠ .awake → s.taker ≠ .awake) ∧
      (s.putNotifies queue = .asleep → s.taker = .asleep ∧ queue.queue = []) := by
  unfold ProxyThreads.putNotifies
  split
  · simp
  · rename_i none
    refine ⟨id, fun asleep => ⟨asleep, ?_⟩⟩
    obtain ⟨-, empty⟩ := inv.taken asleep
    have waits := (inv.taking (by simp [asleep])).1
    have same : ¬ s.outqueue.queue.length < queue.queue.length := fun grown =>
      none ⟨grown, waits⟩
    rw [more, empty] at same ⊢
    simpa using same

theorem Inv.announce (inv : s.Inv) (taken : s.announce = some t) : t.Inv := by
  unfold ProxyThreads.announce at taken
  split at taken
  · cases taken
    exact { inv with heading := by simp }
  · cases taken

/-- Before its last locked section the fetch thread has a whole object to work with. -/
theorem Inv.early (inv : s.Inv) (early : s.reader.worker.past = false) :
    s.destructor = .alive ∧ s.aborting = false ∧ s.outqueue.ok = true ∧ s.idler = .awake := by
  have alive : s.destructor = .alive := by
    by_contra started
    have past := (inv.destroyed started).1
    simp [early] at past
  refine ⟨alive, ?_, inv.alive early, ?_⟩
  · by_contra aborting
    exact inv.aborting (by simpa using aborting) alive
  · by_contra idling
    have waiting := (inv.idling idling).1
    simp [waiting, Worker.past] at early

theorem Inv.initFails (inv : s.Inv) (taken : s.initFails = some t) : t.Inv := by
  unfold ProxyThreads.initFails at taken
  split at taken
  · rename_i fails
    obtain ⟨-, entered, -, handle⟩ := fails
    obtain ⟨alive, -, -, awake⟩ := inv.early (by rw [entered]; rfl)
    cases taken
    refine { inv with
      destroyed := fun started => (started alive).elim
      alive := by simp [Worker.past]
      returned := ?_
      done := rfl
      waiting := by simp
      joining := by simp [handle]
      idling := fun idling => (idling awake).elim
      heading := by simp [handle] }
    intro returned
    obtain ⟨rest, performing⟩ := inv.returned returned
    simp [entered] at performing
  · cases taken

theorem Inv.perform (inv : s.Inv) (taken : s.perform origin = some t) : t.Inv := by
  unfold ProxyThreads.perform at taken
  split at taken
  · obtain ⟨reader, ran, rfl⟩ := Option.map_eq_some_iff.mp taken
    unfold ContentReader.perform at ran
    split at ran
    · rename_i entered
      have early : s.reader.worker.past = false := by rw [entered]; rfl
      obtain ⟨alive, -, ok, awake⟩ := inv.early early
      have done := inv.done
      rw [early] at done
      cases ran
      refine { inv with
        destroyed := fun started => (started alive).elim
        alive := fun _ => ok
        returned := ?_
        done := done
        waiting := by simp
        joining := by simp
        idling := fun idling => (idling awake).elim
        heading := by simp [Worker.past] }
      exact fun _ => ⟨_, rfl⟩
    · cases ran
  · cases taken

theorem Inv.sockopt (inv : s.Inv) (taken : s.sockopt = some t) : t.Inv := by
  unfold ProxyThreads.sockopt at taken
  split at taken
  · cases taken
    exact { inv with }
  · cases taken

theorem Inv.header {last : Bool} (inv : s.Inv) (taken : s.header last = some t) : t.Inv := by
  unfold ProxyThreads.header at taken
  split at taken
  · cases taken
    split
    · exact { inv with heading := by simp }
    · exact inv
  · cases taken

/-- What a callback or the last section does while the fetch thread is performing: it
queues buffers, and goes on from there. -/
theorem Inv.performing (inv : s.Inv) (datas rqueue : List ABuffer) (headbuf : ABuffer)
    (count : Nat) (queue : BufXChange ABuffer) (early : s.reader.worker.past = false)
    (more : (s.reader.fetcher.queued datas rqueue headbuf count).outqueue = queue) :
    (s.putNotifies queue ≠ .awake → 0 < s.workersWaiting ∧
      ∃ max obuf, s.reader.call = .reading max obuf ∧ obuf.length < max) ∧
    (s.putNotifies queue = .asleep → queue.ok = true ∧ queue.queue = []) := by
  obtain ⟨taking, taken⟩ := inv.putNotifies datas queue (by rw [← more]; rfl)
  refine ⟨fun awake => inv.taking (taking awake), fun asleep => ⟨?_, (taken asleep).2⟩⟩
  rw [← more]
  exact inv.alive early

theorem Inv.write {count : Nat} (inv : s.Inv) (taken : s.write count = some t) : t.Inv := by
  unfold ProxyThreads.write at taken
  split at taken
  · rename_i rest performing
    split at taken
    · rename_i within
      obtain ⟨-, unreturned, some, within⟩ := within
      have early : s.reader.worker.past = false := by rw [performing]; rfl
      obtain ⟨alive, -, ok, awake⟩ := inv.early early
      have chunk : rest.take count ≠ [] := by
        rw [ne_eq, List.take_eq_nil_iff]
        rintro (none | none)
        · omega
        · simp [none] at within
          omega
      obtain ⟨datas, rqueue, headbuf, total, run, -⟩ :=
        s.reader.fetcher.curlWriteCB_of_ok (rest.take count) ok chunk
      rw [run] at taken
      cases taken
      obtain ⟨taking, taken⟩ := inv.performing datas rqueue headbuf total _ early rfl
      have done := inv.done
      rw [early] at done
      exact { inv with
        destroyed := fun started => (started alive).elim
        alive := fun _ => ok
        returned := by simp
        done := done
        waiting := by simp
        joining := by simp
        idling := fun idling => (idling awake).elim
        idle := by simp [awake]
        taking := taking
        taken := taken
        heading := by simp [Worker.past] }
    · cases taken
  · cases taken

theorem Inv.performReturns {code : CURLcode} (inv : s.Inv)
    (taken : s.performReturns code = some t) : t.Inv := by
  unfold ProxyThreads.performReturns at taken
  split at taken
  · rename_i rest performing
    split at taken
    · cases taken
      exact { inv with returned := fun _ => ⟨rest, performing⟩ }
    · cases taken
  · cases taken

theorem Inv.final (inv : s.Inv) (safe : s.safe .final = true) (taken : s.final = some t) :
    t.Inv := by
  unfold ProxyThreads.final at taken
  split at taken
  · split at taken
    · cases taken
    · rename_i code returned
      obtain ⟨rest, performing⟩ := inv.returned (by simp [returned])
      have early : s.reader.worker.past = false := by rw [performing]; rfl
      obtain ⟨alive, proceed, ok, awake⟩ := inv.early early
      rw [proceed] at taken
      obtain ⟨reader, ran, rfl⟩ := Option.map_eq_some_iff.mp taken
      unfold ContentReader.performed at ran
      rw [performing] at ran
      dsimp only at ran
      split at ran
      · obtain ⟨datas, rqueue, headbuf, total, run, -⟩ :=
          s.reader.fetcher.performed_of_ok code ok
        rw [run] at ran
        cases ran
        obtain ⟨taking, taken⟩ := inv.performing datas rqueue headbuf total _ early rfl
        refine { inv with
          aborting := by simp
          destroyed := fun started => (started alive).elim
          alive := by simp [Worker.past]
          returned := by simp
          done := rfl
          waiting := by simp
          joining := ?_
          idling := fun idling => (idling awake).elim
          idle := by simp [awake]
          taking := taking
          taken := taken
          heading := by simp }
        intro joining
        refine ⟨by simp, fun _ => .inr ?_⟩
        simpa [ProxyThreads.safe, joining, returned] using safe
      · cases ran
  · cases taken

theorem Inv.putEOS (inv : s.Inv) (taken : s.putEOS = some t) : t.Inv := by
  unfold ProxyThreads.putEOS at taken
  split at taken
  · rename_i handle
    obtain ⟨reader, ran, rfl⟩ := Option.map_eq_some_iff.mp taken
    obtain ⟨closing, fine, datas, rfl⟩ := ContentReader.putEOS_eq ran
    have past : s.reader.worker.past = true := by rw [closing]; rfl
    have awake : s.idler = .awake := by
      by_contra idling
      have waiting := (inv.idling idling).1
      simp [closing] at waiting
    have done := inv.done
    rw [past] at done
    obtain ⟨taking, taken⟩ := inv.putNotifies datas
      { s.outqueue with queue := s.outqueue.queue ++ datas } rfl
    refine { inv with
      destroyed := fun started => ⟨rfl, (inv.destroyed started).2⟩
      alive := by simp [Worker.past]
      returned := ?_
      done := done
      waiting := fun _ => ⟨handle, fine⟩
      joining := ?_
      idling := fun idling => (idling awake).elim
      idle := by simp [awake]
      taking := fun awake => inv.taking (taking awake)
      taken := fun asleep => ⟨(inv.taken (taken asleep).1).1, (taken asleep).2⟩
      heading := fun asleep _ => inv.heading asleep past }
    · intro returned
      obtain ⟨rest, performing⟩ := inv.returned returned
      simp [closing] at performing
    · intro joining
      have failed := (inv.joining joining).2 closing
      simp [handle, fine] at failed
  · cases taken

theorem Inv.waitIdle (inv : s.Inv) (taken : s.waitIdle = some t) : t.Inv := by
  unfold ProxyThreads.waitIdle at taken
  split at taken
  · rename_i waits
    obtain ⟨waiting, -, busy⟩ := waits
    cases taken
    refine { inv with idling := fun _ => ⟨waiting, by simp⟩, idle := fun _ => ?_ }
    simpa [BufXChange.idle] using busy
  · cases taken

theorem Inv.setTerminate (inv : s.Inv) (taken : s.setTerminate = some t) : t.Inv := by
  unfold ProxyThreads.setTerminate at taken
  split at taken
  · split at taken
    · rename_i closing
      have awake : s.idler = .awake := by
        by_contra idling
        have waiting := (inv.idling idling).1
        simp [closing] at waiting
      have done := inv.done
      rw [closing] at done
      cases taken
      refine { inv with
        destroyed := fun _ => ⟨rfl, rfl⟩
        alive := by simp [Worker.past]
        returned := ?_
        done := done
        waiting := by simp
        joining := by simp
        idling := fun idling => (idling awake).elim
        idle := by simp [awake]
        taking := by simpa using inv.taking
        taken := by simp
        heading := by simp }
      intro returned
      obtain ⟨rest, performing⟩ := inv.returned returned
      simp [closing] at performing
    · cases taken
  · split at taken
    · obtain ⟨reader, ran, rfl⟩ := Option.map_eq_some_iff.mp taken
      unfold ContentReader.setTerminate at ran
      split at ran
      · rename_i leaving
        have past : s.reader.worker.past = true := by
          rcases leaving with ⟨closing, -⟩ | ⟨waiting, -⟩
          · rw [closing]; rfl
          · rw [waiting]; rfl
        have done := inv.done
        rw [past] at done
        cases ran
        refine { inv with
          destroyed := fun _ => ⟨rfl, rfl⟩
          alive := by simp [Worker.past]
          returned := ?_
          done := done
          waiting := by simp
          joining := by simp
          idling := by simp
          idle := by simp
          taking := by simpa using inv.taking
          taken := by simp
          heading := fun asleep _ => inv.heading asleep past }
        intro returned
        obtain ⟨rest, performing⟩ := inv.returned returned
        simp [performing, Worker.past] at past
      · cases ran
    · cases taken

theorem Inv.waitForHeaders (inv : s.Inv) (taken : s.waitForHeaders = some t) : t.Inv := by
  unfold ProxyThreads.waitForHeaders at taken
  split at taken
  · cases taken
    refine { inv with heading := fun asleep past => ?_ }
    have done := inv.done
    simp only at asleep past
    simp [past] at done
    simp [done] at asleep
  · cases taken

/-- A call of the reader leaves the fetch thread, and the queue's flag, as they are. -/
theorem Inv.contentRead {max : Nat} (inv : s.Inv) (taken : s.contentRead max = some t) :
    t.Inv := by
  unfold ProxyThreads.contentRead at taken
  split at taken
  · obtain ⟨reader, ran, rfl⟩ := Option.map_eq_some_iff.mp taken
    obtain ⟨outside, call, rfl, notJoining⟩ := ContentReader.contentRead_eq ran
    refine { inv with joining := by simp [notJoining], taking := fun waits => ?_ }
    obtain ⟨-, max, obuf, reading, -⟩ := inv.taking waits
    simp [outside] at reading
  · cases taken

theorem Inv.take (inv : s.Inv) (taken : s.take = some t) : t.Inv := by
  unfold ProxyThreads.take at taken
  split at taken
  · obtain ⟨reader, ran, rfl⟩ := Option.map_eq_some_iff.mp taken
    obtain ⟨rest, normalEOS, call, sent, ok, rfl, notJoining⟩ := ContentReader.take_eq ran
    refine { inv with
      joining := by simp [notJoining]
      idling := ?_
      idle := ?_
      taking := by simp
      taken := by simp }
    · intro idling
      refine inv.idling fun awake => idling ?_
      simp [awake, Wait.notify]
    · intro asleep
      dsimp only at asleep
      split at asleep
      · exact (Wait.notify_ne_asleep _ asleep).elim
      · rename_i none
        exact (none (inv.idling (by simp [asleep])).2).elim
  · cases taken

theorem Inv.takeWaits (inv : s.Inv) (taken : s.takeWaits = some t) : t.Inv := by
  unfold ProxyThreads.takeWaits at taken
  split at taken
  · rename_i max obuf reading
    split at taken
    · rename_i waits
      obtain ⟨-, room, -, empty⟩ := waits
      cases taken
      refine { inv with
        idling := by simpa using inv.idling
        idle := by simp
        taking := fun _ => ⟨by simp, max, obuf, reading, room⟩
        taken := fun _ => ?_ }
      simpa [BufXChange.takeWaits] using empty
    · cases taken
  · cases taken

theorem Inv.giveBack (inv : s.Inv) (taken : s.giveBack = some t) : t.Inv := by
  unfold ProxyThreads.giveBack at taken
  split at taken
  · obtain ⟨reader, ran, rfl⟩ := Option.map_eq_some_iff.mp taken
    obtain ⟨⟨_, _, _, holding⟩, queue, rqueue, max, obuf, rfl, more⟩ :=
      ContentReader.giveBack_eq ran
    have awake : s.taker = .awake := by
      by_contra waits
      obtain ⟨-, max, obuf, reading, -⟩ := inv.taking waits
      simp [holding] at reading
    exact { inv with
      joining := by simp [Call.isJoining]
      idle := fun asleep => ⟨(inv.idle asleep).1, more (inv.idle asleep).2⟩
      taking := fun waits => (waits awake).elim
      taken := by simp [awake] }
  · cases taken

theorem Inv.copied (inv : s.Inv) (taken : s.copied = some t) : t.Inv := by
  unfold ProxyThreads.copied at taken
  split at taken
  · obtain ⟨reader, ran, rfl⟩ := Option.map_eq_some_iff.mp taken
    obtain ⟨⟨max, obuf, reading, full⟩, sent, rfl⟩ := ContentReader.copied_eq ran
    refine { inv with joining := by simp [Call.isJoining], taking := fun waits => ?_ }
    obtain ⟨-, max', obuf', reading', room⟩ := inv.taking waits
    rw [reading] at reading'
    cases reading'
    omega
  · cases taken

/-- A failed `take` leads to a `reset` only if the transfer has failed, or is not done. -/
theorem Inv.joining_of_takeFailed (inv : s.Inv) {garbage : FetchStatus} {reader : ContentReader}
    (ran : s.reader.takeFailed garbage = some reader) :
    ∃ call, reader = { s.reader with call := call } ∧ (call.isJoining = true →
      s.reader.worker ≠ .waiting ∧
        (s.reader.worker = .closing → s.curl = false ∨ s.reader.fetcher.curlCode ≠ .ok)) := by
  obtain ⟨call, same, failed⟩ := ContentReader.takeFailed_eq ran
  have done := inv.done
  refine ⟨call, same, fun joining => ⟨fun waiting => ?_, fun closing => .inr ?_⟩⟩
  · rw [waiting] at done
    exact failed joining done (inv.waiting waiting).2
  · rw [closing] at done
    exact failed joining done

theorem Inv.takeFailed {timedOut : Bool} {garbage : FetchStatus} (inv : s.Inv)
    (taken : s.takeFailed timedOut garbage = some t) : t.Inv := by
  unfold ProxyThreads.takeFailed at taken
  split at taken
  · split at taken
    · split at taken
      · obtain ⟨reader, ran, rfl⟩ := Option.map_eq_some_iff.mp taken
        obtain ⟨call, rfl, joining⟩ := inv.joining_of_takeFailed ran
        exact { inv with joining := joining, taking := by simp, taken := by simp }
      · cases taken
    · split at taken
      · obtain ⟨reader, ran, rfl⟩ := Option.map_eq_some_iff.mp taken
        obtain ⟨call, rfl, joining⟩ := inv.joining_of_takeFailed ran
        exact { inv with joining := joining, taking := by simp, taken := by simp }
      · cases taken
  · cases taken

theorem resting_iff (s : ProxyThreads) :
    s.resting = true ↔ s.destructor = .alive ∧ s.headers = .awake := by
  simp [resting]

theorem Inv.restart (inv : s.Inv) (taken : s.restart = some t) : t.Inv := by
  unfold ProxyThreads.restart at taken
  split at taken
  · rename_i resting
    obtain ⟨alive, awake⟩ := s.resting_iff.mp resting
    obtain ⟨reader, ran, rfl⟩ := Option.map_eq_some_iff.mp taken
    obtain ⟨joining, exited, offset, rfl⟩ := ContentReader.restart_eq ran
    refine { inv with
      destroyed := fun started => (started alive).elim
      alive := fun _ => rfl
      returned := ?_
      done := rfl
      waiting := by simp
      joining := by simp [Call.isJoining]
      idling := ?_
      idle := by simp
      taking := ?_
      taken := by simp
      heading := by simp [awake] }
    · intro returned
      obtain ⟨rest, performing⟩ := inv.returned returned
      simp [exited] at performing
    · intro idling
      have waiting := (inv.idling (by simpa using idling)).1
      simp [exited] at waiting
    · intro waits
      obtain ⟨-, max, obuf, reading, -⟩ := inv.taking (by simpa using waits)
      simp [reading, Call.isJoining] at joining
  · cases taken

theorem Inv.destroy (inv : s.Inv) (safe : s.safe .destroy = true) (taken : s.destroy = some t) :
    t.Inv := by
  unfold ProxyThreads.destroy at taken
  split at taken
  · cases taken
    have past : s.reader.worker.past = true := safe
    exact { inv with
      aborting := by simp
      destroyed := fun _ => ⟨past, rfl⟩
      alive := by simp [past]
      idling := by simpa using inv.idling
      idle := by simp
      taking := by simpa using inv.taking
      taken := by simp }
  · cases taken

theorem Inv.joined (inv : s.Inv) (taken : s.joined = some t) : t.Inv := by
  unfold ProxyThreads.joined at taken
  split at taken
  · rename_i joins
    cases taken
    exact { inv with
      aborting := by simp
      destroyed := fun _ => inv.destroyed (by simp [joins.1]) }
  · cases taken

/-- Being woken for no reason makes the thread test its condition again. -/
theorem Inv.wakeHeaders (inv : s.Inv) : Inv { s with headers := s.headers.notify } :=
  { inv with heading := by simp }

theorem Inv.wakeTaker (inv : s.Inv) : Inv { s with taker := s.taker.notify } :=
  { inv with taking := by simpa using inv.taking, taken := by simp }

theorem Inv.wakeIdler (inv : s.Inv) : Inv { s with idler := s.idler.notify } :=
  { inv with idling := by simpa using inv.idling, idle := by simp }

theorem Inv.step {action : Action} (inv : s.Inv) (safe : s.safe action = true)
    (taken : step origin s action = some (t, ())) : t.Inv := by
  simp only [ProxyThreads.step, Option.map_eq_some_iff, Prod.mk.injEq, and_true,
    exists_eq_right] at taken
  cases action with
  | announce => exact inv.announce taken
  | initFails => exact inv.initFails taken
  | perform => exact inv.perform taken
  | sockopt => exact inv.sockopt taken
  | header last => exact inv.header taken
  | write count => exact inv.write taken
  | performReturns code => exact inv.performReturns taken
  | final => exact inv.final safe taken
  | putEOS => exact inv.putEOS taken
  | waitIdle => exact inv.waitIdle taken
  | setTerminate => exact inv.setTerminate taken
  | waitForHeaders => exact inv.waitForHeaders taken
  | contentRead max => exact inv.contentRead taken
  | take => exact inv.take taken
  | takeWaits => exact inv.takeWaits taken
  | takeFailed timedOut garbage => exact inv.takeFailed taken
  | giveBack => exact inv.giveBack taken
  | copied => exact inv.copied taken
  | restart => exact inv.restart taken
  | destroy => exact inv.destroy safe taken
  | joined => exact inv.joined taken
  | wakeHeaders =>
      cases taken
      exact inv.wakeHeaders
  | wakeTaker =>
      cases taken
      exact inv.wakeTaker
  | wakeIdler =>
      cases taken
      exact inv.wakeIdler

/-- On a terminated queue `waitIdle` does not wait. -/
theorem Inv.exits (inv : s.Inv) (terminated : s.outqueue.ok = false)
    (leaving : s.reader.worker = .waiting ∨ s.reader.worker = .closing ∧
      (s.curl = false ∨ s.reader.fetcher.curlCode ≠ .ok)) :
    ∃ t, s.setTerminate = some t ∧ t.reader.worker = .exited ∧ t.destructor = s.destructor := by
  have awake : s.idler ≠ .asleep := fun asleep => by
    have alive := (inv.idle asleep).1
    simp [terminated] at alive
  have idle : s.reader.fetcher.outqueue.idle = true := by simp [BufXChange.idle, terminated]
  cases handle : s.curl with
  | false =>
      rcases leaving with waiting | ⟨closing, -⟩
      · have handle' := (inv.waiting waiting).1
        simp [handle] at handle'
      · simp [ProxyThreads.setTerminate, handle, closing]
  | true =>
      have ends : (s.reader.worker = .closing ∧ s.reader.fetcher.curlCode ≠ .ok) ∨
          (s.reader.worker = .waiting ∧ s.reader.fetcher.outqueue.idle = true) := by
        rcases leaving with waiting | ⟨closing, none | failed⟩
        · exact .inr ⟨waiting, idle⟩
        · simp [handle] at none
        · exact .inl ⟨closing, failed⟩
      simp [ProxyThreads.setTerminate, handle, awake, ContentReader.setTerminate, ends]

theorem done_of_exited (origin : List UInt8) (joining : s.destructor = .joining)
    (exited : s.reader.worker = .exited) :
    Machine.run (ProxyThreads.step origin) s [.joined] =
      some ({ s with destructor := .done }, [()]) := by
  simp [Machine.run, ProxyThreads.step, ProxyThreads.joined, joining, exited]

theorem Inv.done_of_leaving (inv : s.Inv) (origin : List UInt8) (joining : s.destructor = .joining)
    (leaving : s.reader.worker = .waiting ∨ s.reader.worker = .closing ∧
      (s.curl = false ∨ s.reader.fetcher.curlCode ≠ .ok)) :
    ∃ last outs, Machine.run (ProxyThreads.step origin) s [.setTerminate, .joined] =
      some (last, outs) ∧ last.destructor = .done := by
  obtain ⟨-, terminated⟩ := inv.destroyed (by simp [joining])
  obtain ⟨t, taken, exited, same⟩ := inv.exits terminated leaving
  have ran := done_of_exited origin (same.trans joining) exited
  refine ⟨_, [(), ()], (Machine.run_cons_iff _ _ _ _ _).mpr ⟨t, (), [()], ?_, ran, rfl⟩, rfl⟩
  simp [ProxyThreads.step, taken]

/-- A destructor which has begun within the invariant ends, after steps of the fetch thread
which need no mutex. -/
theorem Inv.destructor_ends (inv : s.Inv) (joining : s.destructor = .joining) :
    ∃ actions last outs, Machine.run (ProxyThreads.step origin) s actions = some (last, outs) ∧
      last.destructor = .done := by
  obtain ⟨past, -⟩ := inv.destroyed (by simp [joining])
  cases place : s.reader.worker with
  | entered => simp [place, Worker.past] at past
  | performing rest => simp [place, Worker.past] at past
  | exited => exact ⟨_, _, _, done_of_exited origin joining place, rfl⟩
  | waiting =>
      obtain ⟨last, outs, ran, done⟩ := inv.done_of_leaving origin joining (.inl place)
      exact ⟨_, last, outs, ran, done⟩
  | closing =>
      by_cases failed : s.curl = false ∨ s.reader.fetcher.curlCode ≠ .ok
      · obtain ⟨last, outs, ran, done⟩ :=
          inv.done_of_leaving origin joining (.inr ⟨place, failed⟩)
        exact ⟨_, last, outs, ran, done⟩
      · obtain ⟨handle, fine⟩ := not_or.mp failed
        have closing : s.reader.worker = .closing ∧ s.reader.fetcher.curlCode = .ok :=
          ⟨place, not_not.mp fine⟩
        obtain ⟨t, taken, waiting, same⟩ : ∃ t, s.putEOS = some t ∧
            t.reader.worker = .waiting ∧ t.destructor = s.destructor := by
          simp [ProxyThreads.putEOS, handle, ContentReader.putEOS, closing]
        obtain ⟨last, outs, ran, done⟩ :=
          (inv.putEOS taken).done_of_leaving origin (same.trans joining) (.inl waiting)
        refine ⟨.putEOS :: [.setTerminate, .joined], last, () :: outs,
          (Machine.run_cons_iff _ _ _ _ _).mpr ⟨t, (), outs, ?_, ran, rfl⟩, done⟩
        simp [ProxyThreads.step, taken]

/-- In a run of safe steps no state is a deadlock, and each of them in which the reader is
being destroyed has a continuation which ends the destruction. -/
theorem not_deadlocked_of_safe (origin : List UInt8) (offset : Nat) (actions : List Action)
    (safe : Machine.Along (fun s action _ _ => s.safe action = true) (ProxyThreads.step origin)
      (start offset) actions) :
    Machine.Along
      (fun _ _ t _ => ¬ t.Deadlocked ∧ (t.destructor = .joining → ∃ rest last outs,
        Machine.run (ProxyThreads.step origin) t rest = some (last, outs) ∧
          last.destructor = .done))
      (ProxyThreads.step origin) (start offset) actions := by
  refine Machine.along_of_invariant ?_ (start offset) actions (inv_start offset) safe
  intro s action t _ inv allowed taken
  have inv' := inv.step allowed taken
  exact ⟨inv', inv'.not_deadlocked, inv'.destructor_ends⟩

/-- A transfer which is cut, resumed, and destroyed once it is complete. -/
theorem not_deadlocked_resumed :
    Machine.Along
      (fun _ _ t _ => ¬ t.Deadlocked ∧ (t.destructor = .joining → ∃ rest last outs,
        Machine.run (ProxyThreads.step [1, 2, 3, 4, 5]) t rest = some (last, outs) ∧
          last.destructor = .done))
      (ProxyThreads.step [1, 2, 3, 4, 5]) (start 0)
      [.announce, .perform, .sockopt, .header true, .waitForHeaders, .write 3, .waitForHeaders,
        .contentRead 10, .takeWaits, .performReturns .partialFile, .final, .take, .giveBack,
        .takeWaits, .setTerminate, .takeFailed false .fetchOk, .restart, .announce, .perform,
        .contentRead 10, .takeWaits, .write 2, .performReturns .ok, .final, .putEOS, .waitIdle,
        .take, .giveBack, .take, .setTerminate, .destroy, .joined] :=
  not_deadlocked_of_safe _ _ _ (by decide)

/-- The client goes away in the middle of the transfer: `~Internal` joins the fetch thread
with `curlmutex` held. And a `take` which times out during the transfer can lead to `reset`,
where the connection thread waits while the other one waits for the queue to be emptied. -/
theorem deadlocked_destroyed :
    ¬ Machine.Along (fun _ _ t _ => ¬ t.Deadlocked) (ProxyThreads.step (List.replicate 2048 7))
        (start 0)
        [.announce, .perform, .sockopt, .header true, .write 1024, .write 1024, .waitForHeaders,
          .contentRead 512, .take, .giveBack, .copied, .destroy] ∧
      ¬ Machine.Along (fun _ _ t _ => ¬ t.Deadlocked) (ProxyThreads.step [1, 2, 3]) (start 0)
        [.announce, .perform, .sockopt, .header true, .waitForHeaders, .write 3, .waitForHeaders,
          .contentRead 10, .takeWaits, .takeFailed true .fetchRetryable, .performReturns .ok,
          .final, .putEOS, .waitIdle] :=
  ⟨by decide +kernel, by decide +kernel⟩

end ProxyThreads

end Upmpdcli
