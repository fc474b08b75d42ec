import Mathlib.Data.Nat.Bitwise
import Upmpdcli.Lib.Machine
import Upmpdcli.MpdCli

set_option autoImplicit false

/- The idle thread of the MPD client: how the changes of MPD get to the subscribers, and what
becomes of them when the idle connection is lost. -/
namespace Upmpdcli

/-- The kinds of changes in `o_idle_mask`. -/
inductive IdleEvent
  | queue
  | player
  | mixer
  | options
deriving DecidableEq

namespace IdleEvent

/-- The bit of the kind in a mask. -/
def bit : IdleEvent → Nat
  | .queue => 2
  | .player => 3
  | .mixer => 4
  | .options => 6

def mask (kind : IdleEvent) : Nat := 2 ^ kind.bit

instance (P : IdleEvent → Prop) [DecidablePred P] : Decidable (∀ kind, P kind) :=
  decidable_of_iff (P .queue ∧ P .player ∧ P .mixer ∧ P .options)
    ⟨fun ⟨_, _, _, _⟩ kind => by cases kind <;> assumption,
      fun all => ⟨all _, all _, all _, all _⟩⟩

end IdleEvent

/-- An entry of `m_subs`. `told` is the time of the latest status it was called with, or that
of its subscription. -/
structure Subscriber where
  mask : Nat
  told : Nat
deriving DecidableEq

/-- Where `eventLoop` is. `control` and `joining` are the parts of `pollerCtl`, after which it
goes on to the callbacks if there is a mask. -/
inductive IdlePc
  | top
  | opened
  | control (st : PlayState) (mask : Option Nat)
  | joining (mask : Option Nat)
  | waiting
  | woken (mask : Nat)
  | calling (mask next : Nat)
  | sleeping
  | ended
deriving DecidableEq

/-- Where `timepoller` is. -/
inductive PollerPc
  | off
  | reading
  | locking
  | calling (next : Nat)
deriving DecidableEq

/-- The client with its threads, and MPD. `m_idleconn` has what MPD has to report on the
connection, and is none when it is down. The time is the number of changes: `last` has that
of the last change of each kind, and `read` that of the status. -/
structure IdleRun where
  w : World := {}
  m_subs : List Subscriber := []
  m_idleconn : Option Nat := none
  m_dopoll : Bool := false
  loop : IdlePc := .top
  poller : PollerPc := .off
  time : Nat := 0
  last : IdleEvent → Nat := fun _ => 0
  read : Nat := 0

/-- A change of MPD, the loss of the idle connection, what the other threads of the program
do, and the next step of `eventLoop` and `timepoller`, with the answer MPD gives. MPD may also
refuse the password on the idle connection. -/
inductive IdleAct
  | change (kind : IdleEvent) (mpd : Mpd)
  | lose
  | refuse
  | subscribe (mask : Nat)
  | startEventLoop
  | updStatus (answered : Bool)
  | eventLoop (answered : Bool)
  | timepoller (answered : Bool)

namespace IdleRun

/-- `updStatus`, while nobody else edits the queue. -/
def updStatus (s : IdleRun) (answered : Bool) : IdleRun :=
  let (w, read) := Upmpdcli.updStatus s.w { answered := answered }
  { s with w := w, read := if read then s.time else s.read }

/-- A callback gets the status as it is. -/
def call (s : IdleRun) (next : Nat) (mask : Nat) : IdleRun :=
  { s with
    m_subs := s.m_subs.modify next fun sub =>
      if sub.mask &&& mask ≠ 0 then { sub with told := max sub.told s.read } else sub }

def locked (s : IdleRun) : Bool :=
  match s.loop, s.poller with
  | .calling .., _ | _, .calling _ => true
  | _, _ => false

/-- `pollerCtl`, without the join at its end. -/
def pollerCtl (s : IdleRun) (st : PlayState) : IdleRun :=
  if st = .play then
    if s.m_dopoll then s else { s with m_dopoll := true, poller := .reading }
  else { s with m_dopoll := false }

/-- The next step of `eventLoop`, unless it has to wait. A connection which cannot be opened is
tried again, and a lost one makes `mpd_run_idle_mask` return 0. -/
def eventLoop (s : IdleRun) (answered : Bool) : Option IdleRun :=
  match s.loop with
  | .top => some (if answered then { s with m_idleconn := some 0, loop := .opened } else s)
  | .opened =>
      let s := s.updStatus answered
      some { s with loop := .control s.w.cli.m_stat.state none }
  | .control st mask => some { s.pollerCtl st with loop := .joining mask }
  | .joining mask =>
      if s.m_dopoll ∨ s.poller = .off then
        match mask with
        | none => some { s with loop := .waiting }
        | some mask => if s.locked then none else some { s with loop := .calling mask 0 }
      else none
  | .waiting =>
      match s.m_idleconn with
      | none => some { s with loop := .top }
      | some 0 => none
      | some mask => some { s with m_idleconn := some 0, loop := .woken mask }
  | .woken mask =>
      let s := s.updStatus answered
      some { s with loop := .control s.w.cli.m_stat.state (some mask) }
  | .calling mask next =>
      if next < s.m_subs.length then
        some { s.call next mask with loop := .calling mask (next + 1) }
      else some { s with loop := .sleeping }
  | .sleeping => some { s with loop := .waiting }
  | .ended => none

/-- The next step of `timepoller`, whose wait is over after a second at the latest. -/
def timepoller (s : IdleRun) (answered : Bool) : Option IdleRun :=
  match s.poller with
  | .off => none
  | .reading => some { s.updStatus answered with poller := .locking }
  | .locking => if s.locked then none else some { s with poller := .calling 0 }
  | .calling next =>
      if next < s.m_subs.length then
        some { s.call next IdleEvent.player.mask with poller := .calling (next + 1) }
      else some { s with poller := if s.m_dopoll then .reading else .off }

def step (s : IdleRun) : IdleAct → Option (IdleRun × Unit)
  | .change kind mpd =>
      some ({ s with
        w := { s.w with mpd := mpd }
        time := s.time + 1
        last := fun other => if other = kind then s.time + 1 else s.last other
        m_idleconn := s.m_idleconn.map (· ||| kind.mask) }, ())
  | .lose => some ({ s with m_idleconn := none }, ())
  | .refuse => if s.loop = .top then some ({ s with loop := .ended }, ()) else none
  | .subscribe mask =>
      if s.locked then none
      else some ({ s with m_subs := s.m_subs ++ [{ mask := mask, told := s.time }] }, ())
  -- The thread is only replaced after its end, for which the caller waits.
  | .startEventLoop => some (if s.loop = .ended then { s with loop := .top } else s, ())
  | .updStatus answered => some (s.updStatus answered, ())
  | .eventLoop answered => (s.eventLoop answered).map fun s => (s, ())
  | .timepoller answered => (s.timepoller answered).map fun s => (s, ())

/-- A change is reported later on, or is being reported to the subscriber at this place, with
a status which is read after it. -/
def Due (s : IdleRun) (i : Nat) (kind : IdleEvent) : Prop :=
  (∃ mask, s.m_idleconn = some mask ∧ mask.testBit kind.bit = true) ∨
    match s.loop with
    | .woken mask => mask.testBit kind.bit = true
    | .control _ (some mask) | .joining (some mask) =>
        mask.testBit kind.bit = true ∧ s.last kind ≤ s.read
    | .calling mask next => mask.testBit kind.bit = true ∧ next ≤ i ∧ s.last kind ≤ s.read
    | _ => False

structure Reported (s : IdleRun) : Prop where
  down : s.loop = .top ∨ s.loop = .ended → s.m_idleconn = none
  read_le : s.read ≤ s.time
  last_le : ∀ kind, s.last kind ≤ s.time
  told : ∀ i sub, s.m_subs[i]? = some sub → ∀ kind, sub.mask.testBit kind.bit = true →
    s.last kind ≤ sub.told ∨ s.Due i kind

/-- No lost change: when the loop waits and MPD has nothing to report, each subscriber was called
with a status read after every change of its mask. -/
def ToldAll (s : IdleRun) : Prop :=
  s.loop = .waiting → s.m_idleconn = some 0 →
    ∀ sub ∈ s.m_subs, ∀ kind : IdleEvent, sub.mask.testBit kind.bit = true →
      s.last kind ≤ sub.told

/-- MPD makes no change while the idle connection is down, the connection is not lost with
changes to report on it, and the status request after a report is answered. -/
def Unbroken (s : IdleRun) : IdleAct → Prop
  | .change .. => s.m_idleconn ≠ none
  | .lose => ∀ mask, s.m_idleconn = some mask → mask = 0
  | .eventLoop answered => (∃ mask, s.loop = .woken mask) → answered = true
  | _ => True

instance (s : IdleRun) : Decidable s.ToldAll :=
  inferInstanceAs (Decidable (s.loop = .waiting → s.m_idleconn = some 0 →
    ∀ sub ∈ s.m_subs, ∀ kind : IdleEvent, sub.mask.testBit kind.bit = true →
      s.last kind ≤ sub.told))

instance (s : IdleRun) : ∀ act, Decidable (s.Unbroken act)
  | .change .. => inferInstanceAs (Decidable (s.m_idleconn ≠ none))
  | .lose => inferInstanceAs (Decidable (∀ mask, s.m_idleconn = some mask → mask = 0))
  | .eventLoop answered =>
      decidable_of_iff
        ((match s.loop with | .woken _ => true | _ => false) = true → answered = true)
        (by cases loop : s.loop <;> simp [Unbroken, loop])
  | .refuse | .subscribe _ | .startEventLoop | .updStatus _ | .timepoller _ => .isTrue trivial

theorem Reported.toldAll {s : IdleRun} (reported : s.Reported) : s.ToldAll := by
  intro waiting idle sub member kind asked
  obtain ⟨i, found⟩ := List.getElem?_of_mem member
  rcases reported.told i sub found kind asked with told | ⟨mask, pending, has⟩ | due
  · exact told
  · rw [idle] at pending
    cases pending
    simp at has
  · simp [waiting] at due

/-- What the status request leaves alone. -/
theorem updStatus_eq (s : IdleRun) (answered : Bool) :
    ∃ w, s.updStatus answered =
      { s with w := w, read := if answered = true then s.time else s.read } := by
  refine ⟨(Upmpdcli.updStatus s.w { answered := answered }).1, ?_⟩
  unfold updStatus Upmpdcli.updStatus
  cases answered <;> rfl

theorem pollerCtl_eq (s : IdleRun) (st : PlayState) :
    ∃ dopoll poller, s.pollerCtl st = { s with m_dopoll := dopoll, poller := poller } := by
  unfold pollerCtl
  split
  · split
    · exact ⟨_, _, rfl⟩
    · exact ⟨_, _, rfl⟩
  · exact ⟨_, _, rfl⟩

/-- What a callback does to the entry at a place. -/
theorem getElem?_call {s : IdleRun} {next mask i : Nat} {sub : Subscriber}
    (found : (s.call next mask).m_subs[i]? = some sub) :
    ∃ old, s.m_subs[i]? = some old ∧ sub.mask = old.mask ∧ old.told ≤ sub.told ∧
      (i = next → old.mask &&& mask ≠ 0 → s.read ≤ sub.told) := by
  rw [call, List.getElem?_modify, Option.map_eq_map, Option.map_eq_some_iff] at found
  obtain ⟨old, here, same⟩ := found
  refine ⟨old, here, ?_⟩
  by_cases at_next : next = i
  · simp only [at_next, if_true] at same
    by_cases asked : old.mask &&& mask ≠ 0
    · rw [if_pos asked] at same
      subst same
      exact ⟨rfl, Nat.le_max_left _ _, fun _ _ => Nat.le_max_right _ _⟩
    · rw [if_neg asked] at same
      subst same
      exact ⟨rfl, le_rfl, fun _ other => absurd other asked⟩
  · simp only [at_next, if_false] at same
    subst same
    exact ⟨rfl, le_rfl, fun here => absurd here.symm at_next⟩

/-- A bit which two masks share. -/
theorem and_ne_zero_of_testBit {first second bit : Nat} (one : first.testBit bit = true)
    (two : second.testBit bit = true) : first &&& second ≠ 0 := by
  intro zero
  have both : (first &&& second).testBit bit = true := by rw [Nat.testBit_and, one, two]; rfl
  rw [zero, Nat.zero_testBit] at both
  cases both

namespace Reported

variable {s t : IdleRun}

/-- A step which calls nobody and is no change, when it forgets nothing that is due. -/
theorem of_due (reported : s.Reported) (subs : t.m_subs = s.m_subs) (last : t.last = s.last)
    (down : t.loop = .top ∨ t.loop = .ended → t.m_idleconn = none) (read_le : t.read ≤ t.time)
    (time_le : s.time ≤ t.time)
    (due : ∀ i kind, i < s.m_subs.length → s.Due i kind → t.Due i kind) : t.Reported where
  down := down
  read_le := read_le
  last_le kind := last ▸ (reported.last_le kind).trans time_le
  told i sub found kind asked := by
    rw [subs] at found
    rw [last]
    have within : i < s.m_subs.length := (List.getElem?_eq_some_iff.mp found).1
    exact (reported.told i sub found kind asked).imp_right (due i kind within)

theorem updStatus (reported : s.Reported) (answered : Bool) :
    (s.updStatus answered).Reported := by
  obtain ⟨w, same⟩ := updStatus_eq s answered
  rw [same]
  have newer : s.read ≤ if answered = true then s.time else s.read := by
    split
    · exact reported.read_le
    · exact le_rfl
  refine reported.of_due rfl rfl reported.down ?_ le_rfl fun i kind _ due => due.imp_right ?_
  · dsimp only
    split
    · exact le_rfl
    · exact reported.read_le
  · dsimp only
    split
    · exact id
    · exact fun now => ⟨now.1, now.2.trans newer⟩
    · exact fun now => ⟨now.1, now.2.trans newer⟩
    · exact fun now => ⟨now.1, now.2.1, now.2.2.trans newer⟩
    · exact id

/-- The player of the status is called, or one of the subscribers of a report. -/
theorem call (reported : s.Reported) (next mask : Nat) : (s.call next mask).Reported where
  down := reported.down
  read_le := reported.read_le
  last_le := reported.last_le
  told i sub found kind asked := by
    obtain ⟨old, here, same, later, -⟩ := getElem?_call found
    exact (reported.told i old here kind (same ▸ asked)).imp_left fun told => told.trans later

theorem change (reported : s.Reported) (kind : IdleEvent) (mpd : Mpd)
    (up : s.m_idleconn ≠ none) (taken : s.step (.change kind mpd) = some (t, ())) :
    t.Reported := by
  obtain ⟨pending, conn⟩ := Option.ne_none_iff_exists'.mp up
  simp only [step, Option.some.injEq, Prod.mk.injEq, and_true] at taken
  subst taken
  refine ⟨fun ended => absurd (reported.down ended) up, Nat.le_succ_of_le reported.read_le,
    fun other => ?_, fun i sub found other asked => ?_⟩
  · dsimp only
    split
    · exact le_rfl
    · exact Nat.le_succ_of_le (reported.last_le other)
  · by_cases same : other = kind
    · -- MPD has it to report.
      refine .inr (.inl ⟨pending ||| kind.mask, by simp [conn], ?_⟩)
      rw [same, Nat.testBit_or, IdleEvent.mask, Nat.testBit_two_pow_self, Bool.or_true]
    · dsimp only
      rw [if_neg same]
      refine (reported.told i sub found other asked).imp_right fun due => ?_
      rcases due with ⟨mask, held, has⟩ | now
      · refine .inl ⟨mask ||| kind.mask, by simp [held], ?_⟩
        rw [Nat.testBit_or, has, Bool.true_or]
      · refine .inr ?_
        revert now
        dsimp only
        rw [if_neg same]
        exact id

theorem lose (reported : s.Reported) (reports : ∀ mask, s.m_idleconn = some mask → mask = 0) :
    Reported { s with m_idleconn := none } := by
  refine reported.of_due rfl rfl (fun _ => rfl) reported.read_le le_rfl fun i kind _ due => ?_
  rcases due with ⟨mask, held, has⟩ | now
  · rw [reports mask held, Nat.zero_testBit] at has
    cases has
  · exact .inr now

/-- A subscriber has nothing to be told of what happened before. -/
theorem subscribe (reported : s.Reported) (mask : Nat) :
    Reported { s with m_subs := s.m_subs ++ [{ mask := mask, told := s.time }] } where
  down := reported.down
  read_le := reported.read_le
  last_le := reported.last_le
  told i sub found kind asked := by
    dsimp only at found
    rw [List.getElem?_append] at found
    split at found
    · exact reported.told i sub found kind asked
    · rw [List.getElem?_singleton] at found
      split at found
      · cases found
        exact .inl (reported.last_le kind)
      · cases found

/-- A subscriber is called for a report, if its mask has one of the changes. -/
theorem calls {mask next : Nat} (reported : s.Reported) (loop : s.loop = .calling mask next) :
    Reported { s.call next mask with loop := .calling mask (next + 1) } := by
  refine ⟨by simp, reported.read_le, reported.last_le, fun i sub found kind asked => ?_⟩
  obtain ⟨old, here, same, later, read⟩ := getElem?_call found
  rw [same] at asked
  rcases reported.told i old here kind asked with told | pending | now
  · exact .inl (told.trans later)
  · exact .inr (.inl pending)
  · rw [loop] at now
    obtain ⟨has, place, after⟩ := now
    rcases Nat.eq_or_lt_of_le place with at_next | past
    · exact .inl (after.trans (read at_next.symm (and_ne_zero_of_testBit asked has)))
    · exact .inr (.inr ⟨has, past, after⟩)

theorem eventLoop {answered : Bool} (reported : s.Reported)
    (fresh : (∃ mask, s.loop = .woken mask) → answered = true)
    (taken : s.eventLoop answered = some t) : t.Reported := by
  unfold IdleRun.eventLoop at taken
  cases loop : s.loop with
  | top =>
      rw [loop] at taken
      cases taken
      cases answered with
      | false => exact reported
      | true =>
          refine reported.of_due rfl rfl (by simp) reported.read_le le_rfl
            fun i kind _ due => ?_
          rcases due with ⟨mask, held, -⟩ | now
          · rw [reported.down (.inl loop)] at held
            cases held
          · rw [loop] at now
            exact now.elim
  | opened =>
      rw [loop] at taken
      cases taken
      refine (reported.updStatus answered).of_due rfl rfl (by simp)
        (reported.updStatus answered).read_le le_rfl fun i kind _ due => ?_
      refine due.imp_right fun now => ?_
      obtain ⟨w, same⟩ := updStatus_eq s answered
      simp [same, loop] at now
  | control st mask =>
      rw [loop] at taken
      cases taken
      obtain ⟨dopoll, poller, same⟩ := pollerCtl_eq s st
      rw [same]
      refine reported.of_due rfl rfl (by simp) reported.read_le le_rfl fun i kind _ due => ?_
      refine due.imp_right fun now => ?_
      rw [loop] at now
      cases mask with
      | none => exact now
      | some mask => exact now
  | joining mask =>
      rw [loop] at taken
      dsimp only at taken
      split at taken
      · cases mask with
        | none =>
            cases taken
            refine reported.of_due rfl rfl (by simp) reported.read_le le_rfl
              fun i kind _ due => due.imp_right fun now => ?_
            rw [loop] at now
            exact now
        | some mask =>
            dsimp only at taken
            split at taken
            · cases taken
            · cases taken
              refine reported.of_due rfl rfl (by simp) reported.read_le le_rfl
                fun i kind _ due => due.imp_right fun now => ?_
              rw [loop] at now
              exact ⟨now.1, Nat.zero_le i, now.2⟩
      · cases taken
  | waiting =>
      rw [loop] at taken
      dsimp only at taken
      split at taken
      · rename_i down
        cases taken
        exact reported.of_due rfl rfl (fun _ => down) reported.read_le le_rfl
          fun i kind _ due => due.imp_right fun now => by rwa [loop] at now
      · cases taken
      · rename_i mask _ held
        cases taken
        refine reported.of_due rfl rfl (by simp) reported.read_le le_rfl
          fun i kind _ due => .inr ?_
        rcases due with ⟨other, pending, has⟩ | now
        · rw [held] at pending
          cases pending
          exact has
        · rw [loop] at now
          exact now.elim
  | woken mask =>
      rw [loop] at taken
      cases taken
      obtain ⟨w, same⟩ := updStatus_eq s answered
      rw [same, if_pos (fresh ⟨mask, loop⟩)]
      refine reported.of_due rfl rfl (by simp) le_rfl le_rfl
        fun i kind _ due => due.imp_right fun now => ?_
      rw [loop] at now
      exact ⟨now, reported.last_le kind⟩
  | calling mask next =>
      rw [loop] at taken
      dsimp only at taken
      split at taken
      · cases taken
        exact reported.calls loop
      · rename_i all
        cases taken
        refine reported.of_due rfl rfl (by simp) reported.read_le le_rfl
          fun i kind within due => due.imp_right fun now => ?_
        rw [loop] at now
        exact absurd (Nat.lt_of_le_of_lt now.2.1 within) all
  | sleeping =>
      rw [loop] at taken
      cases taken
      exact reported.of_due rfl rfl (by simp) reported.read_le le_rfl
        fun i kind _ due => due.imp_right fun now => by rwa [loop] at now
  | ended =>
      rw [loop] at taken
      cases taken

theorem timepoller {answered : Bool} (reported : s.Reported)
    (taken : s.timepoller answered = some t) : t.Reported := by
  -- What the poller does next is of no concern.
  have anywhere : ∀ {s : IdleRun} (poller : PollerPc), s.Reported →
      Reported { s with poller := poller } := fun _ reported =>
    reported.of_due rfl rfl reported.down reported.read_le le_rfl fun _ _ _ due => due
  unfold IdleRun.timepoller at taken
  cases poller : s.poller with
  | off =>
      rw [poller] at taken
      cases taken
  | reading =>
      rw [poller] at taken
      cases taken
      exact anywhere .locking (reported.updStatus answered)
  | locking =>
      rw [poller] at taken
      dsimp only at taken
      split at taken
      · cases taken
      · cases taken
        exact anywhere _ reported
  | calling next =>
      rw [poller] at taken
      dsimp only at taken
      split at taken
      · cases taken
        exact anywhere _ (reported.call next IdleEvent.player.mask)
      · cases taken
        exact anywhere _ reported

theorem step {act : IdleAct} {out : Unit} (reported : s.Reported) (unbroken : s.Unbroken act)
    (taken : s.step act = some (t, out)) : t.Reported := by
  cases act with
  | change kind mpd => exact reported.change kind mpd unbroken taken
  | lose =>
      cases taken
      exact reported.lose unbroken
  | refuse =>
      simp only [IdleRun.step, Option.ite_none_right_eq_some, Option.some.injEq, Prod.mk.injEq,
        and_true] at taken
      obtain ⟨top, rfl⟩ := taken
      exact reported.of_due rfl rfl (fun _ => reported.down (.inl top)) reported.read_le le_rfl
        fun i kind _ due => due.imp_right fun now => by rwa [top] at now
  | subscribe mask =>
      simp only [IdleRun.step, Option.ite_none_left_eq_some, Option.some.injEq, Prod.mk.injEq,
        and_true] at taken
      obtain ⟨-, rfl⟩ := taken
      exact reported.subscribe mask
  | startEventLoop =>
      simp only [IdleRun.step, Option.some.injEq, Prod.mk.injEq, and_true] at taken
      subst taken
      split
      · rename_i ended
        exact reported.of_due rfl rfl (fun _ => reported.down (.inr ended)) reported.read_le le_rfl
          fun i kind _ due => due.imp_right fun now => by rwa [ended] at now
      · exact reported
  | updStatus answered =>
      cases taken
      exact reported.updStatus answered
  | eventLoop answered =>
      simp only [IdleRun.step, Option.map_eq_some_iff, Prod.mk.injEq, and_true] at taken
      obtain ⟨_, taken, rfl⟩ := taken
      exact reported.eventLoop unbroken taken
  | timepoller answered =>
      simp only [IdleRun.step, Option.map_eq_some_iff, Prod.mk.injEq, and_true] at taken
      obtain ⟨_, taken, rfl⟩ := taken
      exact reported.timepoller taken

end Reported

/-- A run from the construction of the client: the idle thread has not connected yet. -/
theorem toldAll_of_unbroken (w : World) (acts : List IdleAct)
    (unbroken : Machine.Along (fun s act _ _ => s.Unbroken act) step { w := w } acts) :
    Machine.Along (fun _ _ t _ => t.ToldAll) step { w := w } acts := by
  have start : Reported { w := w } :=
    ⟨fun _ => rfl, le_rfl, fun _ => le_rfl, fun _ _ found => by simp at found⟩
  have preserve : ∀ s act t out, Reported s → s.Unbroken act → s.step act = some (t, out) →
      Reported t ∧ t.ToldAll := by
    intro s act t out reported guarded taken
    have kept : t.Reported := reported.step guarded taken
    exact ⟨kept, kept.toldAll⟩
  exact Machine.along_of_invariant preserve _ acts start unbroken

/-- The idle thread gets to `mpd_run_idle_mask`. -/
def connect : List IdleAct :=
  [.eventLoop true, .eventLoop true, .eventLoop true, .eventLoop true]

/-- A player change is reported, then the connection is lost and opened again. -/
theorem toldAll_reported :
    let acts := connect ++ [.subscribe IdleEvent.player.mask, .change .player {}] ++
      [.eventLoop true, .eventLoop true, .eventLoop true, .eventLoop true, .eventLoop true,
        .eventLoop true, .eventLoop true, .lose, .eventLoop true] ++ connect
    Machine.Along (fun _ _ t _ => t.ToldAll) step {} acts ∧
      (Machine.run step {} acts).map (fun (t, _) => (t.loop, t.m_idleconn, t.m_subs)) =
        some (.waiting, some 0, [{ mask := 8, told := 1 }]) :=
  ⟨toldAll_of_unbroken _ _ (by decide), by decide⟩

/-- The player changes between the loss of the connection and its reopening, and the loop waits
again without a call. -/
theorem not_toldAll : ¬ ∀ (w : World) (acts : List IdleAct),
    Machine.Along (fun _ _ t _ => t.ToldAll) step { w := w } acts := by
  intro always
  have lost := always {} (connect ++ [.subscribe IdleEvent.player.mask, .lose,
    .change .player {}, .eventLoop true] ++ connect)
  exact absurd lost (by decide)

end IdleRun

end Upmpdcli
