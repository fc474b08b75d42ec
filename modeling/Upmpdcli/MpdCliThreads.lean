import Mathlib.Logic.Function.Basic
import Upmpdcli.Lib.Machine
import Upmpdcli.Lib.Mutex
import Upmpdcli.Mpd

set_option autoImplicit false

/- The threads of the MPD client: when its idle thread and its poller are started and joined,
and with which mutexes. -/
namespace Upmpdcli

/-- The users of the client have their own threads. -/
inductive Thread
  | caller (n : Nat)
  | idle
  | poller
deriving DecidableEq

/-- Where a thread is in a call of the client. `lock` and `destroy` wait for `m_mutex`, and `work`
is a command which has it; the next three are `startEventLoop`, and the last three
`stopEventLoop`, with or without `m_mutex`. -/
inductive CallPlace
  | out
  | lock
  | work
  | start (locked : Bool)
  | check (locked : Bool)
  | joinOld (locked : Bool)
  | destroy
  | stop (locked : Bool)
  | test (locked : Bool)
  | joinIdle (locked : Bool)
deriving DecidableEq

namespace CallPlace

/-- With `m_mutex`. -/
def locked : CallPlace → Bool
  | .work => true
  | .start locked | .check locked | .joinOld locked => locked
  | .stop locked | .test locked | .joinIdle locked => locked
  | _ => false

/-- With `m_idlemutex`. -/
def idlelocked : CallPlace → Bool
  | .check _ | .joinOld _ | .test _ => true
  | _ => false

/-- In the destructor, with `m_mutex`. -/
def destroying : CallPlace → Bool
  | .stop locked | .test locked | .joinIdle locked => locked
  | _ => false

/-- After `startEventLoop`. -/
def after (locked : Bool) : CallPlace := if locked then .work else .out

@[simp] theorem locked_after (locked : Bool) : (after locked).locked = locked := by
  cases locked <;> rfl

@[simp] theorem idlelocked_after (locked : Bool) : (after locked).idlelocked = false := by
  cases locked <;> rfl

@[simp] theorem destroying_after (locked : Bool) : (after locked).destroying = false := by
  cases locked <;> rfl

theorem after_ne_joinOld (locked other : Bool) : after locked ≠ joinOld other := by
  cases locked <;> nofun

theorem locked_of_destroying {place : CallPlace} (destroying : place.destroying = true) :
    place.locked = true := by
  cases place <;> first | exact destroying | cases destroying

end CallPlace

/-- Where `eventLoop` is, between its calls. It waits for `m_idlemutex` at `top` and `closing`
and has it at `connecting` and `closed`; `joinPoller` and `quitJoin` are the ends of
`pollerCtl`. -/
inductive IdlePlace
  | off
  | top
  | connecting
  | status (changed : Bool)
  | control (changed : Bool)
  | joinPoller (changed : Bool)
  | loop
  | run
  | notify
  | calling
  | sleeping
  | quit
  | quitJoin
  | closing
  | closed
  | ended
deriving DecidableEq

namespace IdlePlace

def idlelocked : IdlePlace → Bool
  | .connecting | .closed => true
  | _ => false

/-- The thread gets to `mpd_run_idle_mask` or to its end without a status request. -/
def settled : IdlePlace → Bool
  | .off | .joinPoller false | .loop | .run | .sleeping => true
  | .quit | .quitJoin | .closing | .closed | .ended => true
  | _ => false

end IdlePlace

/-- Where `timepoller` is, between its calls. -/
inductive PollerPlace
  | off
  | status
  | notify
  | calling
  | waiting
  | ended
deriving DecidableEq

/-- The client. The connection for the commands is always used with `m_mutex`, and nobody waits
with `m_pollmutex`. -/
structure Threads where
  m_mutex : Option Thread := none
  m_idlemutex : Option Thread := none
  m_callbackmutex : Option Thread := none
  m_idleconn : Bool := false
  m_idleneedstop : Bool := false
  m_dopoll : Bool := false
  idle : IdlePlace := .off
  poller : PollerPlace := .off
  pc : Thread → CallPlace := fun _ => .out

/-- What comes of the opening of the idle connection. -/
inductive IdleOpen
  | opened
  | failed
  | refused
deriving DecidableEq

/-- The environment of a step of `eventLoop`: what comes of the opening of its connection, the
state in the status, whether `mpd_run_idle_mask` reports a change, and whether a subscriber
makes a call. -/
structure LoopEnv where
  conn : IdleOpen := .opened
  st : PlayState := .stop
  changed : Bool := false
  command : Bool := false

/-- The calls from outside. The constructor and the commands lock `m_mutex` and may open the
connection; `takeEvents` and `shouldExit` call `startEventLoop` and `stopEventLoop` without
it. -/
inductive ClientCall
  | command
  | destroy
  | startEventLoop
  | stopEventLoop
deriving DecidableEq

def ClientCall.place : ClientCall → CallPlace
  | .command => .lock
  | .destroy => .destroy
  | .startEventLoop => .start false
  | .stopEventLoop => .stop false

inductive ThreadAct
  | call (n : Nat) (call : ClientCall)
  | advance (thread : Thread) (reopen : Bool)
  | eventLoop (env : LoopEnv)
  | timepoller (command : Bool)

namespace Threads

def goTo (s : Threads) (thread : Thread) (place : CallPlace) : Threads :=
  { s with pc := Function.update s.pc thread place }

@[simp] theorem pc_goTo_self (s : Threads) (thread : Thread) (place : CallPlace) :
    (s.goTo thread place).pc thread = place :=
  Function.update_self ..

theorem pc_goTo_of_ne (s : Threads) {thread other : Thread} (place : CallPlace)
    (apart : other ≠ thread) : (s.goTo thread place).pc other = s.pc other :=
  Function.update_of_ne apart ..

/-- The end of `stopEventLoop`, and of the destructor. -/
def leave (s : Threads) (thread : Thread) (locked : Bool) : Threads :=
  { s.goTo thread .out with m_mutex := if locked then none else s.m_mutex }

/-- The next step of a thread within a call, unless it has to wait. A command opens the
connection as often as it has to. -/
def advance (s : Threads) (thread : Thread) (reopen : Bool) : Option Threads :=
  match s.pc thread with
  | .out => none
  | .lock =>
      if s.m_mutex = none then some { s.goTo thread .work with m_mutex := some thread } else none
  | .work =>
      some (if reopen then s.goTo thread (.start true)
        else { s.goTo thread .out with m_mutex := none })
  | .start locked =>
      if s.m_idlemutex = none then
        some { s.goTo thread (.check locked) with m_idlemutex := some thread }
      else none
  | .check locked =>
      if s.m_idleconn = true then
        some { s.goTo thread (.after locked) with m_idlemutex := none }
      else if s.idle = .off then
        some { s.goTo thread (.after locked) with m_idlemutex := none, idle := .top }
      else some (s.goTo thread (.joinOld locked))
  | .joinOld locked =>
      if s.idle = .off ∨ s.idle = .ended then
        some { s.goTo thread (.after locked) with m_idlemutex := none, idle := .top }
      else none
  | .destroy =>
      if s.m_mutex = none then some { s.goTo thread (.stop true) with m_mutex := some thread }
      else none
  | .stop locked =>
      if s.m_idlemutex = none then
        some { s.goTo thread (.test locked) with m_idlemutex := some thread }
      else none
  | .test locked =>
      some (if s.m_idleconn = true then
          { s.goTo thread (.joinIdle locked) with m_idlemutex := none, m_idleneedstop := true }
        else { s.leave thread locked with m_idlemutex := none })
  | .joinIdle locked =>
      if s.idle = .off ∨ s.idle = .ended then
        some { s.leave thread locked with idle := .off, m_idleneedstop := false }
      else none

/-- `pollerCtl`, without the join at its end. -/
def pollerCtl (s : Threads) (st : PlayState) : Threads :=
  if st = .play then
    if s.m_dopoll then s else { s with m_dopoll := true, poller := .status }
  else { s with m_dopoll := false }

theorem pollerCtl_eq (s : Threads) (st : PlayState) :
    ∃ dopoll poller, s.pollerCtl st = { s with m_dopoll := dopoll, poller := poller } := by
  unfold pollerCtl
  split
  · split
    · exact ⟨_, _, rfl⟩
    · exact ⟨_, _, rfl⟩
  · exact ⟨_, _, rfl⟩

def joinPoller (s : Threads) (next : IdlePlace) : Option Threads :=
  if s.m_dopoll = true then some { s with idle := next }
  else if s.poller = .off ∨ s.poller = .ended then some { s with poller := .off, idle := next }
  else none

/-- The next step of `eventLoop`, unless it has to wait. -/
def eventLoop (s : Threads) (env : LoopEnv) : Option Threads :=
  match s.idle with
  | .off | .ended => none
  | .top =>
      if s.m_idlemutex = none then
        some { s with m_idlemutex := some .idle, idle := .connecting }
      else none
  | .connecting =>
      let s := { s with m_idlemutex := none }
      match env.conn with
      | .opened => some { s with m_idleconn := true, idle := .status false }
      | .failed => some { s with m_idleconn := false, idle := .top }
      | .refused => some { s with m_idleconn := false, idle := .ended }
  | .status changed => some { s.goTo .idle .lock with idle := .control changed }
  | .control changed => some { s.pollerCtl env.st with idle := .joinPoller changed }
  | .joinPoller changed => s.joinPoller (if changed then .notify else .loop)
  | .loop =>
      some (if s.m_idleneedstop then { s with m_idleneedstop := false, idle := .quit }
        else { s with idle := .run })
  | .run =>
      some (if env.changed then { s with idle := .status true }
        else if s.m_idleneedstop then { s with m_idleneedstop := false, idle := .quit }
        else { s with idle := .top })
  | .notify =>
      if s.m_callbackmutex = none then
        some { s with m_callbackmutex := some .idle, idle := .calling }
      else none
  | .calling =>
      some (if env.command then s.goTo .idle .lock
        else { s with m_callbackmutex := none, idle := .sleeping })
  | .sleeping => some { s with idle := .loop }
  | .quit => some { s.pollerCtl .stop with idle := .quitJoin }
  | .quitJoin => s.joinPoller .closing
  | .closing =>
      if s.m_idlemutex = none then
        some { s with m_idlemutex := some .idle, idle := .closed }
      else none
  | .closed => some { s with m_idlemutex := none, m_idleconn := false, idle := .ended }

/-- The next step of `timepoller`, whose wait is over after a second at the latest. -/
def timepoller (s : Threads) (command : Bool) : Option Threads :=
  match s.poller with
  | .off | .ended => none
  | .status => some { s.goTo .poller .lock with poller := .notify }
  | .notify =>
      if s.m_callbackmutex = none then
        some { s with m_callbackmutex := some .poller, poller := .calling }
      else none
  | .calling =>
      some (if command then s.goTo .poller .lock
        else { s with m_callbackmutex := none, poller := .waiting })
  | .waiting => some { s with poller := if s.m_dopoll then .status else .ended }

def step (s : Threads) : ThreadAct → Option (Threads × Unit)
  | .call n call =>
      if s.pc (.caller n) = .out then some (s.goTo (.caller n) call.place, ()) else none
  | .advance thread reopen => (s.advance thread reopen).map fun s => (s, ())
  | .eventLoop env =>
      if s.pc .idle = .out then (s.eventLoop env).map fun s => (s, ()) else none
  | .timepoller command =>
      if s.pc .poller = .out then (s.timepoller command).map fun s => (s, ()) else none

end Threads

inductive LockName
  | m_mutex
  | m_idlemutex

namespace Threads

def owner (s : Threads) : LockName → Option Thread
  | .m_mutex => s.m_mutex
  | .m_idlemutex => s.m_idlemutex

def Waits (s : Threads) (thread : Thread) : LockName → Prop
  | .m_mutex => s.pc thread = .lock ∨ s.pc thread = .destroy
  | .m_idlemutex =>
      (∃ locked, s.pc thread = .start locked ∨ s.pc thread = .stop locked) ∨
        thread = .idle ∧ s.pc thread = .out ∧ (s.idle = .top ∨ s.idle = .closing)

def Joins (s : Threads) (thread other : Thread) : Prop :=
  (∃ locked, s.pc thread = .joinOld locked ∨ s.pc thread = .joinIdle locked) ∧ other = .idle ∨
    (thread = .idle ∧ s.pc thread = .out ∧ s.m_dopoll = false ∧
      (s.idle = .quitJoin ∨ ∃ changed, s.idle = .joinPoller changed)) ∧ other = .poller

/-- A thread with a mutex joins one which waits for the mutex, or which joins one that does. -/
def Deadlock (s : Threads) : Prop :=
  ∃ thread other mutex, s.owner mutex = some thread ∧ s.Joins thread other ∧
    (s.Waits other mutex ∨ ∃ third, s.Joins other third ∧ s.Waits third mutex)

/-- The poller is not there, or goes to its end. -/
def PollerDone (s : Threads) : Prop :=
  s.poller = .off ∨ s.poller = .ended ∨ s.poller = .waiting ∧ s.m_dopoll = false

/-- Nobody but the users of the client is going to ask for `m_mutex`. -/
structure Settled (s : Threads) : Prop where
  idle_out : s.pc .idle = .out
  idle : s.idle.settled = true
  poller_out : s.pc .poller = .out
  poller : s.PollerDone

/-- The destructor has `m_mutex`. -/
def Destroying (s : Threads) : Prop :=
  ∃ thread, s.m_mutex = some thread ∧ (s.pc thread).destroying = true

/-- `startEventLoop` finds a connection, or an idle thread which has ended, and is not called
during the destruction. The destructor gets `m_mutex` when the other threads do without it. -/
def SafeAt (s : Threads) : CallPlace → Prop
  | .check _ => s.m_idleconn = false → (s.idle = .off ∨ s.idle = .ended) ∧ ¬ s.Destroying
  | .joinOld _ => ¬ s.Destroying
  | .destroy => s.Settled
  | _ => True

/-- And then `mpd_run_idle_mask` returns for its `noidle` only. -/
def Safe (s : Threads) : ThreadAct → Prop
  | .advance thread _ => s.SafeAt (s.pc thread)
  | .eventLoop env =>
      s.Destroying → s.idle = .run → env.changed = false ∧ s.m_idleneedstop = true
  | _ => True

def Locked (pc : Thread → CallPlace) (thread : Thread) : Prop := (pc thread).locked = true

def IdleLocked (pc : Thread → CallPlace) (idle : IdlePlace) (thread : Thread) : Prop :=
  (pc thread).idlelocked = true ∨ thread = .idle ∧ idle.idlelocked = true

structure Ordered (s : Threads) : Prop where
  locked : Mutex.Held s.m_mutex (Locked s.pc)
  idlelocked : Mutex.Held s.m_idlemutex (IdleLocked s.pc s.idle)
  incall : s.pc .idle ≠ .out → s.idle = .calling ∨ ∃ changed, s.idle = .control changed
  joined : ∀ thread locked, s.pc thread = .joinOld locked → s.idle = .off ∨ s.idle = .ended
  settled : ∀ thread, (s.pc thread).destroying = true → s.Settled

section Places

variable {pc : Thread → CallPlace} {idle : IdlePlace} {thread other : Thread} {place : CallPlace}

theorem locked_of_ne (apart : other ≠ thread) :
    Locked (Function.update pc thread place) other ↔ Locked pc other := by
  rw [Locked, Function.update_of_ne apart, Locked]

theorem locked_congr (same : place.locked = (pc thread).locked) (other : Thread) :
    Locked (Function.update pc thread place) other ↔ Locked pc other := by
  by_cases here : other = thread
  · subst here
    rw [Locked, Function.update_self, same, Locked]
  · exact locked_of_ne here

theorem idleLocked_of_ne (apart : other ≠ thread) :
    IdleLocked (Function.update pc thread place) idle other ↔ IdleLocked pc idle other := by
  rw [IdleLocked, Function.update_of_ne apart, IdleLocked]

theorem idleLocked_congr (same : place.idlelocked = (pc thread).idlelocked) (other : Thread) :
    IdleLocked (Function.update pc thread place) idle other ↔ IdleLocked pc idle other := by
  by_cases here : other = thread
  · subst here
    rw [IdleLocked, Function.update_self, same, IdleLocked]
  · exact idleLocked_of_ne here

end Places

namespace Ordered

variable {s t : Threads} {thread other : Thread} {place : CallPlace}

/-- The idle thread has neither mutex for its own code while it is in a call. -/
theorem idle_idlelocked (ordered : s.Ordered) (incall : s.pc .idle ≠ .out) :
    s.idle.idlelocked = false := by
  rcases ordered.incall incall with calling | ⟨changed, control⟩
  · rw [calling]; rfl
  · rw [control]; rfl

theorem idle_unlocked (ordered : s.Ordered) (within : s.pc thread ≠ .out)
    (unlocked : place.idlelocked = false) :
    ¬ IdleLocked (Function.update s.pc thread place) s.idle thread := by
  rintro (inside | ⟨rfl, inside⟩)
  · rw [Function.update_self, unlocked] at inside
    cases inside
  · rw [ordered.idle_idlelocked within] at inside
    cases inside

theorem keeps_mutex (ordered : s.Ordered) (same : place.locked = (s.pc thread).locked) :
    Mutex.Held s.m_mutex (Locked (s.goTo thread place).pc) :=
  ordered.locked.congr (locked_congr same)

theorem takes_mutex (ordered : s.Ordered) (free : s.m_mutex = none)
    (inside : place.locked = true) : Mutex.Held (some thread) (Locked (s.goTo thread place).pc) := by
  have locked := ordered.locked
  rw [free] at locked
  exact locked.lock (by rw [Locked, pc_goTo_self, inside]) fun _ => locked_of_ne

theorem gives_mutex (ordered : s.Ordered) (has : (s.pc thread).locked = true)
    (outside : place.locked = false) : Mutex.Held none (Locked (s.goTo thread place).pc) :=
  ordered.locked.unlock has (by rw [Locked, pc_goTo_self, outside]; nofun) fun _ => locked_of_ne

theorem keeps_idlemutex (ordered : s.Ordered)
    (same : place.idlelocked = (s.pc thread).idlelocked) :
    Mutex.Held s.m_idlemutex (IdleLocked (s.goTo thread place).pc s.idle) :=
  ordered.idlelocked.congr (idleLocked_congr same)

theorem takes_idlemutex (ordered : s.Ordered) (free : s.m_idlemutex = none)
    (inside : place.idlelocked = true) :
    Mutex.Held (some thread) (IdleLocked (s.goTo thread place).pc s.idle) := by
  have idlelocked := ordered.idlelocked
  rw [free] at idlelocked
  exact idlelocked.lock (.inl (by rw [pc_goTo_self, inside])) fun _ => idleLocked_of_ne

theorem gives_idlemutex (ordered : s.Ordered) (has : (s.pc thread).idlelocked = true)
    (outside : place.idlelocked = false) :
    Mutex.Held none (IdleLocked (s.goTo thread place).pc s.idle) := by
  have within : s.pc thread ≠ .out := fun out => by rw [out] at has; cases has
  exact ordered.idlelocked.unlock (.inl has) (ordered.idle_unlocked within outside)
    fun _ => idleLocked_of_ne

/-- The destructor has it until its end. -/
theorem leave_mutex (ordered : s.Ordered) {locked : Bool}
    (same : (s.pc thread).locked = locked) :
    Mutex.Held (s.leave thread locked).m_mutex (Locked (s.goTo thread .out).pc) := by
  cases locked with
  | true => exact ordered.gives_mutex same rfl
  | false => exact ordered.keeps_mutex same.symm

/-- A thread within a call leaves the idle thread and the poller where they are. -/
theorem moved (ordered : s.Ordered) (within : s.pc thread ≠ .out)
    (pc : t.pc = Function.update s.pc thread place) (idle : t.idle = s.idle)
    (poller : t.poller = s.poller) (dopoll : t.m_dopoll = s.m_dopoll)
    (locked : Mutex.Held t.m_mutex (Locked t.pc))
    (idlelocked : Mutex.Held t.m_idlemutex (IdleLocked t.pc t.idle))
    (joined : ∀ locked, place = .joinOld locked → s.idle = .off ∨ s.idle = .ended)
    (settled : place.destroying = true → s.Settled) : t.Ordered where
  locked := locked
  idlelocked := idlelocked
  incall inside := by
    rw [idle]
    refine ordered.incall fun out => inside ?_
    have apart : Thread.idle ≠ thread := fun same => within (same ▸ out)
    rw [pc, Function.update_of_ne apart, out]
  joined other locked joining := by
    rw [idle]
    by_cases here : other = thread
    · subst here
      rw [pc, Function.update_self] at joining
      exact joined locked joining
    · rw [pc, Function.update_of_ne here] at joining
      exact ordered.joined other locked joining
  settled other destroying := by
    have before : s.Settled := by
      by_cases here : other = thread
      · subst here
        rw [pc, Function.update_self] at destroying
        exact settled destroying
      · rw [pc, Function.update_of_ne here] at destroying
        exact ordered.settled other destroying
    have idle_apart : Thread.idle ≠ thread := fun same => within (same ▸ before.idle_out)
    have poller_apart : Thread.poller ≠ thread := fun same => within (same ▸ before.poller_out)
    refine ⟨?_, idle ▸ before.idle, ?_, ?_⟩
    · rw [pc, Function.update_of_ne idle_apart, before.idle_out]
    · rw [pc, Function.update_of_ne poller_apart, before.poller_out]
    · rw [PollerDone, poller, dopoll]
      exact before.poller

theorem destroying (ordered : s.Ordered) (destroys : (s.pc thread).destroying = true) :
    s.Destroying :=
  ⟨thread, ordered.locked.owner_eq (CallPlace.locked_of_destroying destroys), destroys⟩

theorem idle_out (ordered : s.Ordered) (gone : s.idle = .off ∨ s.idle = .ended) :
    s.pc .idle = .out := by
  by_contra incall
  rcases ordered.incall incall with calling | ⟨changed, control⟩
  · rw [calling] at gone
    rcases gone with gone | gone <;> cases gone
  · rw [control] at gone
    rcases gone with gone | gone <;> cases gone

/-- The end of `startEventLoop` when it starts the thread. -/
theorem started (ordered : s.Ordered) {locked : Bool}
    (starting : s.pc thread = .check locked ∨ s.pc thread = .joinOld locked)
    (gone : s.idle = .off ∨ s.idle = .ended) (alone : ¬ s.Destroying) :
    Ordered { s.goTo thread (.after locked) with m_idlemutex := none, idle := .top } := by
  have has : (s.pc thread).idlelocked = true := by rcases starting with at_place | at_place <;>
    rw [at_place] <;> rfl
  have within : s.pc thread ≠ .out := fun out => by rw [out] at has; cases has
  have idle_apart : Thread.idle ≠ thread := fun same => within (same ▸ ordered.idle_out gone)
  have unlocked : s.idle.idlelocked = false := by rcases gone with gone | gone <;> rw [gone] <;> rfl
  have top : IdlePlace.top.idlelocked = false := rfl
  have mine : ∀ other, (s.pc other).idlelocked = true → other = thread := fun other also =>
    ordered.idlelocked.unique (.inl also) (.inl has)
  refine ⟨?_, ?_, ?_, ?_, ?_⟩
  · refine ordered.locked.congr (locked_congr ?_)
    rcases starting with at_place | at_place <;> rw [at_place, CallPlace.locked_after] <;> rfl
  · refine ordered.idlelocked.unlock (.inl has) ?_ fun other apart => ?_
    · simp [IdleLocked, top]
    · simp [IdleLocked, pc_goTo_of_ne s _ apart, top, unlocked]
  · intro incall
    refine absurd ?_ incall
    exact (pc_goTo_of_ne s _ idle_apart).trans (ordered.idle_out gone)
  · intro other locked' joining
    exfalso
    by_cases here : other = thread
    · subst here
      exact CallPlace.after_ne_joinOld locked locked' ((pc_goTo_self ..).symm.trans joining)
    · have before : s.pc other = .joinOld locked' := (pc_goTo_of_ne s _ here).symm.trans joining
      exact here (mine other (by rw [before]; rfl))
  · intro other destroys
    exfalso
    by_cases here : other = thread
    · subst here
      simp at destroys
    · exact alone (ordered.destroying ((congrArg _ (pc_goTo_of_ne s _ here)).symm.trans destroys))

/-- The handle of the idle thread is cleared after the join. -/
theorem cleared (ordered : s.Ordered) (gone : s.idle = .off ∨ s.idle = .ended) :
    Ordered { s with idle := .off, m_idleneedstop := false } where
  locked := ordered.locked
  idlelocked := by
    refine ordered.idlelocked.congr fun other => ?_
    have unlocked : s.idle.idlelocked = false := by
      rcases gone with gone | gone <;> rw [gone] <;> rfl
    have off : IdlePlace.off.idlelocked = false := rfl
    simp [IdleLocked, unlocked, off]
  incall incall := absurd (ordered.idle_out gone) incall
  joined _ _ _ := .inl rfl
  settled other destroys :=
    have before := ordered.settled other destroys
    ⟨before.idle_out, rfl, before.poller_out, before.poller⟩

theorem advance {reopen : Bool} (ordered : s.Ordered) (safe : s.Safe (.advance thread reopen))
    (taken : s.advance thread reopen = some t) : t.Ordered := by
  unfold Threads.advance at taken
  have safe : s.SafeAt (s.pc thread) := safe
  cases at_place : s.pc thread with
  | out =>
      rw [at_place] at taken
      cases taken
  | lock =>
      rw [at_place] at taken
      dsimp only at taken
      split at taken
      · rename_i free
        cases taken
        exact ordered.moved (by simp [at_place]) rfl rfl rfl rfl (ordered.takes_mutex free rfl)
          (ordered.keeps_idlemutex (by rw [at_place]; rfl)) nofun nofun
      · cases taken
  | work =>
      rw [at_place] at taken
      cases taken
      have within : s.pc thread ≠ .out := by simp [at_place]
      cases reopen with
      | true =>
          exact ordered.moved within rfl rfl rfl rfl (ordered.keeps_mutex (by rw [at_place]; rfl))
            (ordered.keeps_idlemutex (by rw [at_place]; rfl)) nofun nofun
      | false =>
          exact ordered.moved within rfl rfl rfl rfl
            (ordered.gives_mutex (by rw [at_place]; rfl) rfl)
            (ordered.keeps_idlemutex (by rw [at_place]; rfl)) nofun nofun
  | start locked =>
      rw [at_place] at taken
      dsimp only at taken
      split at taken
      · rename_i free
        cases taken
        exact ordered.moved (by simp [at_place]) rfl rfl rfl rfl
          (ordered.keeps_mutex (by rw [at_place]; rfl)) (ordered.takes_idlemutex free rfl)
          nofun nofun
      · cases taken
  | check locked =>
      rw [at_place] at taken safe
      dsimp only at taken
      split at taken
      · cases taken
        exact ordered.moved (by simp [at_place]) rfl rfl rfl rfl
          (ordered.keeps_mutex (by rw [at_place, CallPlace.locked_after]; rfl))
          (ordered.gives_idlemutex (by rw [at_place]; rfl) (CallPlace.idlelocked_after locked))
          (fun other same => absurd same (CallPlace.after_ne_joinOld locked other)) (by simp)
      · rename_i down
        obtain ⟨gone, alone⟩ := safe (by simpa using down)
        split at taken
        · cases taken
          exact ordered.started (.inl at_place) gone alone
        · cases taken
          exact ordered.moved (by simp [at_place]) rfl rfl rfl rfl
            (ordered.keeps_mutex (by rw [at_place]; rfl))
            (ordered.keeps_idlemutex (by rw [at_place]; rfl)) (fun _ _ => gone) nofun
  | joinOld locked =>
      rw [at_place] at taken safe
      dsimp only at taken
      split at taken
      · rename_i gone
        cases taken
        exact ordered.started (.inr at_place) gone safe
      · cases taken
  | destroy =>
      rw [at_place] at taken safe
      dsimp only at taken
      split at taken
      · rename_i free
        cases taken
        exact ordered.moved (by simp [at_place]) rfl rfl rfl rfl (ordered.takes_mutex free rfl)
          (ordered.keeps_idlemutex (by rw [at_place]; rfl)) nofun fun _ => safe
      · cases taken
  | stop locked =>
      rw [at_place] at taken
      dsimp only at taken
      split at taken
      · rename_i free
        cases taken
        exact ordered.moved (by simp [at_place]) rfl rfl rfl rfl
          (ordered.keeps_mutex (by rw [at_place]; rfl)) (ordered.takes_idlemutex free rfl) nofun
          fun destroys => ordered.settled thread (by rw [at_place]; exact destroys)
      · cases taken
  | test locked =>
      rw [at_place] at taken
      cases taken
      have within : s.pc thread ≠ .out := by simp [at_place]
      have has : (s.pc thread).idlelocked = true := by rw [at_place]; rfl
      split
      · exact ordered.moved within rfl rfl rfl rfl (ordered.keeps_mutex (by rw [at_place]; rfl))
          (ordered.gives_idlemutex has rfl) nofun
          fun destroys => ordered.settled thread (by rw [at_place]; exact destroys)
      · exact ordered.moved within rfl rfl rfl rfl (ordered.leave_mutex (by rw [at_place]; rfl))
          (ordered.gives_idlemutex has rfl) nofun nofun
  | joinIdle locked =>
      rw [at_place] at taken
      dsimp only at taken
      split at taken
      · rename_i gone
        cases taken
        have left : (s.leave thread locked).Ordered :=
          ordered.moved (by simp [at_place]) rfl rfl rfl rfl
            (ordered.leave_mutex (by rw [at_place]; rfl))
            (ordered.keeps_idlemutex (by rw [at_place]; rfl)) nofun nofun
        exact left.cleared gone
      · cases taken

theorem idlelocked_congr (ordered : s.Ordered) {place : IdlePlace}
    (same : place.idlelocked = s.idle.idlelocked) :
    Mutex.Held s.m_idlemutex (IdleLocked s.pc place) :=
  ordered.idlelocked.congr fun other => by rw [IdleLocked, IdleLocked, same]

/-- A step of the idle thread out of the calls, which is not started or ended by others. -/
theorem idleTo (ordered : s.Ordered) (out : s.pc .idle = .out)
    (there : ¬ (s.idle = .off ∨ s.idle = .ended)) (pc : t.pc = s.pc)
    (m_mutex : t.m_mutex = s.m_mutex)
    (idlelocked : Mutex.Held t.m_idlemutex (IdleLocked s.pc t.idle))
    (settled : s.Destroying → s.Settled →
      t.idle.settled = true ∧ t.PollerDone) : t.Ordered where
  locked := by rw [m_mutex, pc]; exact ordered.locked
  idlelocked := by rw [pc]; exact idlelocked
  incall incall := absurd (pc ▸ out) incall
  joined other locked joining := absurd (ordered.joined other locked (pc ▸ joining)) there
  settled other destroys := by
    rw [pc] at destroys
    have before := ordered.settled other destroys
    obtain ⟨idle, poller⟩ := settled (ordered.destroying destroys) before
    exact ⟨pc ▸ out, idle, pc ▸ before.poller_out, poller⟩

/-- The idle thread asks for `m_mutex`, for the status or in the call of a subscriber. -/
theorem idleCalls (ordered : s.Ordered) (out : s.pc .idle = .out)
    (there : ¬ (s.idle = .off ∨ s.idle = .ended)) (unsettled : s.idle.settled = false)
    (pc : t.pc = Function.update s.pc .idle .lock) (m_mutex : t.m_mutex = s.m_mutex)
    (idlelocked : Mutex.Held t.m_idlemutex (IdleLocked s.pc t.idle))
    (place : t.idle = .calling ∨ ∃ changed, t.idle = .control changed) : t.Ordered where
  locked := by
    rw [m_mutex, pc]
    exact ordered.locked.congr (locked_congr (by rw [out]; rfl))
  idlelocked := by
    rw [pc]
    exact idlelocked.congr (idleLocked_congr (by rw [out]; rfl))
  incall _ := place
  joined other locked joining := by
    by_cases here : other = .idle
    · rw [pc, here, Function.update_self] at joining
      cases joining
    · rw [pc, Function.update_of_ne here] at joining
      exact absurd (ordered.joined other locked joining) there
  settled other destroys := by
    by_cases here : other = .idle
    · rw [pc, here, Function.update_self] at destroys
      cases destroys
    · rw [pc, Function.update_of_ne here] at destroys
      rw [(ordered.settled other destroys).idle] at unsettled
      cases unsettled

theorem idle_lock (ordered : s.Ordered) (free : s.m_idlemutex = none) {place : IdlePlace}
    (locks : place.idlelocked = true) : Mutex.Held (some .idle) (IdleLocked s.pc place) := by
  have idlelocked := ordered.idlelocked
  rw [free] at idlelocked
  exact idlelocked.lock (.inr ⟨rfl, locks⟩) fun other apart => by simp [IdleLocked, apart]

theorem idle_unlock (ordered : s.Ordered) (out : s.pc .idle = .out)
    (has : s.idle.idlelocked = true) {place : IdlePlace} (unlocks : place.idlelocked = false) :
    Mutex.Held none (IdleLocked s.pc place) := by
  refine ordered.idlelocked.unlock (.inr ⟨rfl, has⟩) ?_ fun other apart => by
    simp [IdleLocked, apart]
  rintro (inside | ⟨-, inside⟩)
  · rw [out] at inside
    cases inside
  · rw [unlocks] at inside
    cases inside

theorem joinPoller {next : IdlePlace} (ordered : s.Ordered) (out : s.pc .idle = .out)
    (there : ¬ (s.idle = .off ∨ s.idle = .ended)) (unlocked : s.idle.idlelocked = false)
    (same : next.idlelocked = false) (settled : s.idle.settled = true → next.settled = true)
    (taken : s.joinPoller next = some t) : t.Ordered := by
  have idlelocked := ordered.idlelocked_congr (same.trans unlocked.symm)
  unfold Threads.joinPoller at taken
  split at taken
  · cases taken
    exact ordered.idleTo out there rfl rfl idlelocked
      fun _ before => ⟨settled before.idle, before.poller⟩
  · split at taken
    · cases taken
      exact ordered.idleTo out there rfl rfl idlelocked fun _ before =>
        ⟨settled before.idle, .inl rfl⟩
    · cases taken

theorem eventLoop {env : LoopEnv} (ordered : s.Ordered) (out : s.pc .idle = .out)
    (safe : s.Safe (.eventLoop env)) (taken : s.eventLoop env = some t) : t.Ordered := by
  unfold Threads.eventLoop at taken
  -- No destructor has the mutex while the thread is on its way to a status request.
  have unsettled : s.idle.settled = false → ∀ {P : Prop}, s.Destroying → s.Settled → P :=
    fun not _ _ before => by rw [before.idle] at not; cases not
  cases loop : s.idle with
  | off =>
      rw [loop] at taken
      cases taken
  | ended =>
      rw [loop] at taken
      cases taken
  | top =>
      rw [loop] at taken
      dsimp only at taken
      split at taken
      · rename_i free
        cases taken
        exact ordered.idleTo out (by simp [loop]) rfl rfl (ordered.idle_lock free rfl)
          (unsettled (by rw [loop]; rfl))
      · cases taken
  | connecting =>
      rw [loop] at taken
      have has : s.idle.idlelocked = true := by rw [loop]; rfl
      have there : ¬ (s.idle = .off ∨ s.idle = .ended) := by simp [loop]
      have unsettled : ∀ {P : Prop}, s.Destroying → s.Settled → P :=
        unsettled (by rw [loop]; rfl)
      cases conn : env.conn with
      | opened =>
          rw [conn] at taken
          cases taken
          exact ordered.idleTo out there rfl rfl (ordered.idle_unlock out has rfl) unsettled
      | failed =>
          rw [conn] at taken
          cases taken
          exact ordered.idleTo out there rfl rfl (ordered.idle_unlock out has rfl) unsettled
      | refused =>
          rw [conn] at taken
          cases taken
          exact ordered.idleTo out there rfl rfl (ordered.idle_unlock out has rfl) unsettled
  | status changed =>
      rw [loop] at taken
      cases taken
      exact ordered.idleCalls out (by simp [loop]) (by rw [loop]; rfl) rfl rfl
        (ordered.idlelocked_congr (by rw [loop]; rfl)) (.inr ⟨changed, rfl⟩)
  | control changed =>
      rw [loop] at taken
      cases taken
      obtain ⟨dopoll, poller, same⟩ := pollerCtl_eq s env.st
      rw [same]
      exact ordered.idleTo out (by simp [loop]) rfl rfl
        (ordered.idlelocked_congr (by rw [loop]; rfl)) (unsettled (by rw [loop]; rfl))
  | joinPoller changed =>
      rw [loop] at taken
      refine ordered.joinPoller out (by simp [loop]) (by rw [loop]; rfl) ?_ ?_ taken
      · cases changed <;> rfl
      · rw [loop]
        cases changed with
        | false => exact fun _ => rfl
        | true => nofun
  | loop =>
      rw [loop] at taken
      cases taken
      split
      · exact ordered.idleTo out (by simp [loop]) rfl rfl
          (ordered.idlelocked_congr (by rw [loop]; rfl)) fun _ before => ⟨rfl, before.poller⟩
      · exact ordered.idleTo out (by simp [loop]) rfl rfl
          (ordered.idlelocked_congr (by rw [loop]; rfl)) fun _ before => ⟨rfl, before.poller⟩
  | run =>
      rw [loop] at taken
      cases taken
      have there : ¬ (s.idle = .off ∨ s.idle = .ended) := by simp [loop]
      split
      · rename_i changed
        refine ordered.idleTo out there rfl rfl (ordered.idlelocked_congr (by rw [loop]; rfl))
          fun destroying _ => ?_
        rw [(safe destroying loop).1] at changed
        cases changed
      · split
        · exact ordered.idleTo out there rfl rfl (ordered.idlelocked_congr (by rw [loop]; rfl))
            fun _ before => ⟨rfl, before.poller⟩
        · rename_i nostop
          refine ordered.idleTo out there rfl rfl (ordered.idlelocked_congr (by rw [loop]; rfl))
            fun destroying _ => ?_
          exact absurd (safe destroying loop).2 nostop
  | notify =>
      rw [loop] at taken
      dsimp only at taken
      split at taken
      · cases taken
        exact ordered.idleTo out (by simp [loop]) rfl rfl
          (ordered.idlelocked_congr (by rw [loop]; rfl)) (unsettled (by rw [loop]; rfl))
      · cases taken
  | calling =>
      rw [loop] at taken
      cases taken
      split
      · exact ordered.idleCalls out (by simp [loop]) (by rw [loop]; rfl) rfl rfl
          (ordered.idlelocked_congr rfl) (.inl loop)
      · exact ordered.idleTo out (by simp [loop]) rfl rfl
          (ordered.idlelocked_congr (by rw [loop]; rfl)) (unsettled (by rw [loop]; rfl))
  | sleeping =>
      rw [loop] at taken
      cases taken
      exact ordered.idleTo out (by simp [loop]) rfl rfl
        (ordered.idlelocked_congr (by rw [loop]; rfl)) fun _ before => ⟨rfl, before.poller⟩
  | quit =>
      rw [loop] at taken
      cases taken
      refine ordered.idleTo out (by simp [loop]) rfl rfl
        (ordered.idlelocked_congr (by rw [loop]; rfl)) fun _ before => ⟨rfl, ?_⟩
      exact before.poller.imp_right (Or.imp_right fun waiting => ⟨waiting.1, rfl⟩)
  | quitJoin =>
      rw [loop] at taken
      exact ordered.joinPoller out (by simp [loop]) (by rw [loop]; rfl) rfl (fun _ => rfl) taken
  | closing =>
      rw [loop] at taken
      dsimp only at taken
      split at taken
      · rename_i free
        cases taken
        exact ordered.idleTo out (by simp [loop]) rfl rfl (ordered.idle_lock free rfl)
          fun _ before => ⟨rfl, before.poller⟩
      · cases taken
  | closed =>
      rw [loop] at taken
      cases taken
      exact ordered.idleTo out (by simp [loop]) rfl rfl
        (ordered.idle_unlock out (by rw [loop]; rfl) rfl) fun _ before => ⟨rfl, before.poller⟩

/-- Another thread than the idle one goes on without a mutex. -/
theorem enters (ordered : s.Ordered) (out : s.pc thread = .out) (apart : thread ≠ .idle)
    (calls : place = .out ∨ ∃ call : ClientCall, place = call.place)
    (pc : t.pc = Function.update s.pc thread place) (m_mutex : t.m_mutex = s.m_mutex)
    (m_idlemutex : t.m_idlemutex = s.m_idlemutex) (idle : t.idle = s.idle)
    (poller : s.Settled → (thread = .poller → place = .out) ∧ t.PollerDone) : t.Ordered := by
  have nothing : place.locked = false ∧ place.idlelocked = false ∧ place.destroying = false ∧
      ∀ locked, place ≠ .joinOld locked := by
    rcases calls with rfl | ⟨call, rfl⟩
    · exact ⟨rfl, rfl, rfl, nofun⟩
    · cases call <;> exact ⟨rfl, rfl, rfl, nofun⟩
  obtain ⟨unlocked, idle_unlocked, leaves, joins⟩ := nothing
  refine ⟨?_, ?_, fun incall => ?_, fun other locked joining => ?_, fun other destroys => ?_⟩
  · rw [m_mutex, pc]
    exact ordered.locked.congr (locked_congr (by rw [out, unlocked]; rfl))
  · rw [m_idlemutex, pc, idle]
    exact ordered.idlelocked.congr (idleLocked_congr (by rw [out, idle_unlocked]; rfl))
  · rw [idle]
    rw [pc, Function.update_of_ne apart.symm] at incall
    exact ordered.incall incall
  · rw [idle]
    by_cases here : other = thread
    · rw [pc, here, Function.update_self] at joining
      exact absurd joining (joins locked)
    · rw [pc, Function.update_of_ne here] at joining
      exact ordered.joined other locked joining
  · by_cases here : other = thread
    · rw [pc, here, Function.update_self, leaves] at destroys
      cases destroys
    · rw [pc, Function.update_of_ne here] at destroys
      have before := ordered.settled other destroys
      obtain ⟨stays, done⟩ := poller before
      refine ⟨?_, idle ▸ before.idle, ?_, done⟩
      · rw [pc, Function.update_of_ne apart.symm, before.idle_out]
      · by_cases here : thread = .poller
        · rw [pc, here, Function.update_self, stays here]
        · rw [pc, Function.update_of_ne (Ne.symm here), before.poller_out]

theorem timepoller {command : Bool} (ordered : s.Ordered) (out : s.pc .poller = .out)
    (taken : s.timepoller command = some t) : t.Ordered := by
  unfold Threads.timepoller at taken
  have stays : s.pc = Function.update s.pc .poller .out := by
    rw [← out, Function.update_eq_self]
  -- During the destruction the poller only ends.
  have running : ¬ s.PollerDone → ∀ {P : Prop}, s.Settled → P :=
    fun there _ before => absurd before.poller there
  cases poller : s.poller with
  | off =>
      rw [poller] at taken
      cases taken
  | ended =>
      rw [poller] at taken
      cases taken
  | status =>
      rw [poller] at taken
      cases taken
      exact ordered.enters out nofun (.inr ⟨.command, rfl⟩) rfl rfl rfl rfl
        (running (by simp [PollerDone, poller]))
  | notify =>
      rw [poller] at taken
      dsimp only at taken
      split at taken
      · cases taken
        exact ordered.enters out nofun (.inl rfl) stays rfl rfl rfl
          (running (by simp [PollerDone, poller]))
      · cases taken
  | calling =>
      rw [poller] at taken
      cases taken
      cases command with
      | true =>
          exact ordered.enters out nofun (.inr ⟨.command, rfl⟩) rfl rfl rfl rfl
            (running (by simp [PollerDone, poller]))
      | false =>
          exact ordered.enters out nofun (.inl rfl) stays rfl rfl rfl
            (running (by simp [PollerDone, poller]))
  | waiting =>
      rw [poller] at taken
      cases taken
      refine ordered.enters out nofun (.inl rfl) stays rfl rfl rfl fun before =>
        ⟨fun _ => rfl, .inr (.inl ?_)⟩
      have stopped : s.m_dopoll = false := by simpa [PollerDone, poller] using before.poller
      simp [stopped]

theorem step {act : ThreadAct} {out : Unit} (ordered : s.Ordered) (safe : s.Safe act)
    (taken : s.step act = some (t, out)) : t.Ordered := by
  cases act with
  | call n call =>
      simp only [Threads.step, Option.ite_none_right_eq_some, Option.some.injEq, Prod.mk.injEq,
        and_true] at taken
      obtain ⟨out, rfl⟩ := taken
      exact ordered.enters out nofun (.inr ⟨call, rfl⟩) rfl rfl rfl rfl fun before =>
        ⟨nofun, before.poller⟩
  | advance thread reopen =>
      simp only [Threads.step, Option.map_eq_some_iff, Prod.mk.injEq, and_true] at taken
      obtain ⟨_, taken, rfl⟩ := taken
      exact ordered.advance safe taken
  | eventLoop env =>
      simp only [Threads.step, Option.ite_none_right_eq_some, Option.map_eq_some_iff,
        Prod.mk.injEq, and_true] at taken
      obtain ⟨out, _, taken, rfl⟩ := taken
      exact ordered.eventLoop out safe taken
  | timepoller command =>
      simp only [Threads.step, Option.ite_none_right_eq_some, Option.map_eq_some_iff,
        Prod.mk.injEq, and_true] at taken
      obtain ⟨out, _, taken, rfl⟩ := taken
      exact ordered.timepoller out taken

/-- Before the client is built. -/
theorem initial : Ordered {} where
  locked _ := by simp [Locked, CallPlace.locked]
  idlelocked _ := by simp [IdleLocked, CallPlace.idlelocked, IdlePlace.idlelocked]
  incall incall := absurd rfl incall
  joined _ _ joining := by cases joining
  settled _ destroys := by cases destroys

theorem idle_not_waits (ordered : s.Ordered) (gone : s.idle = .off ∨ s.idle = .ended)
    (mutex : LockName) : ¬ s.Waits .idle mutex := by
  have out := ordered.idle_out gone
  intro waits
  cases mutex with
  | m_mutex => rcases waits with waits | waits <;> rw [out] at waits <;> cases waits
  | m_idlemutex =>
      rcases waits with ⟨_, waits | waits⟩ | ⟨-, -, place⟩
      · rw [out] at waits
        cases waits
      · rw [out] at waits
        cases waits
      · rcases gone with gone | gone <;> simp [gone] at place

theorem not_deadlock (ordered : s.Ordered) : ¬ s.Deadlock := by
  rintro ⟨thread, other, mutex, owned, ⟨⟨locked, joining | joining⟩, rfl⟩ |
    ⟨⟨rfl, out, -, place⟩, rfl⟩, blocked⟩
  · -- The thread which `startEventLoop` joins has ended.
    have gone := ordered.joined thread locked joining
    have out := ordered.idle_out gone
    rcases blocked with waits | ⟨third, ⟨⟨_, joins | joins⟩, -⟩ | ⟨⟨-, -, -, place⟩, -⟩, -⟩
    · exact ordered.idle_not_waits gone mutex waits
    · rw [out] at joins
      cases joins
    · rw [out] at joins
      cases joins
    · rcases gone with gone | gone <;> simp [gone] at place
  · cases mutex with
    | m_idlemutex =>
        rcases (ordered.idlelocked thread).mp owned with has | ⟨rfl, has⟩
        · rw [joining] at has
          cases has
        · rw [ordered.idle_idlelocked (by simp [joining])] at has
          cases has
    | m_mutex =>
        -- It is the destructor.
        have has : (s.pc thread).locked = true := (ordered.locked thread).mp owned
        have settled := ordered.settled thread (by rw [joining] at has ⊢; exact has)
        rcases blocked with waits | ⟨third, ⟨⟨_, joins | joins⟩, -⟩ | ⟨-, rfl⟩, waits⟩
        · rcases waits with waits | waits <;> rw [settled.idle_out] at waits <;> cases waits
        · rw [settled.idle_out] at joins
          cases joins
        · rw [settled.idle_out] at joins
          cases joins
        · rcases waits with waits | waits <;> rw [settled.poller_out] at waits <;> cases waits
  · cases mutex with
    | m_mutex =>
        have has : (s.pc .idle).locked = true := (ordered.locked .idle).mp owned
        rw [out] at has
        cases has
    | m_idlemutex =>
        rcases (ordered.idlelocked .idle).mp owned with has | ⟨-, has⟩
        · rw [out] at has
          cases has
        · rcases place with place | ⟨_, place⟩ <;> rw [place] at has <;> cases has

end Ordered

instance (s : Threads) : Decidable s.PollerDone :=
  inferInstanceAs (Decidable
    (s.poller = .off ∨ s.poller = .ended ∨ s.poller = .waiting ∧ s.m_dopoll = false))

instance (s : Threads) : Decidable s.Settled :=
  decidable_of_iff
    ((s.pc .idle = .out ∧ s.idle.settled = true) ∧ s.pc .poller = .out ∧ s.PollerDone)
    ⟨fun ⟨⟨a, b⟩, c, d⟩ => ⟨a, b, c, d⟩, fun ⟨a, b, c, d⟩ => ⟨⟨a, b⟩, c, d⟩⟩

instance (s : Threads) : Decidable s.Destroying :=
  decidable_of_iff ((s.m_mutex.map fun thread => (s.pc thread).destroying) = some true)
    (by simp [Destroying])

instance (s : Threads) : ∀ place, Decidable (s.SafeAt place)
  | .check _ => inferInstanceAs (Decidable
      (s.m_idleconn = false → (s.idle = .off ∨ s.idle = .ended) ∧ ¬ s.Destroying))
  | .joinOld _ => inferInstanceAs (Decidable ¬ s.Destroying)
  | .destroy => inferInstanceAs (Decidable s.Settled)
  | .out | .lock | .work | .start _ | .stop _ | .test _ | .joinIdle _ => .isTrue trivial

instance (s : Threads) : ∀ act, Decidable (s.Safe act)
  | .advance thread _ => inferInstanceAs (Decidable (s.SafeAt (s.pc thread)))
  | .eventLoop env =>
      inferInstanceAs (Decidable (s.Destroying → s.idle = .run →
        env.changed = false ∧ s.m_idleneedstop = true))
  | .call .. | .timepoller _ => .isTrue trivial

/-- In every state of such a run. -/
theorem not_deadlock_of_safe (acts : List ThreadAct) (s : Threads) (outs : List Unit)
    (safe : Machine.Along (fun s act _ _ => s.Safe act) step {} acts)
    (ran : Machine.run step {} acts = some (s, outs)) : ¬ s.Deadlock := by
  have preserve : ∀ s act t out, Ordered s → s.Safe act → s.step act = some (t, out) →
      Ordered t := fun _ _ _ _ ordered safe taken => ordered.step safe taken
  have ordered : Ordered s := Machine.invariant_of_run preserve _ s acts outs .initial safe ran
  exact ordered.not_deadlock

/-- The constructor, up to the start of the idle thread. -/
def construct : List ThreadAct :=
  [.call 0 .command, .advance (.caller 0) false, .advance (.caller 0) true,
    .advance (.caller 0) false, .advance (.caller 0) false]

def destruct : List ThreadAct :=
  [.call 0 .destroy, .advance (.caller 0) false, .advance (.caller 0) false,
    .advance (.caller 0) false]

/-- The client is built, its idle thread waits for a change of MPD, which is stopped, and then
the client is destroyed. -/
def buildAndDestroy : List ThreadAct :=
  construct ++ [.advance (.caller 0) false, .eventLoop {}, .eventLoop {}, .eventLoop {},
    .advance .idle false, .advance .idle false, .eventLoop {}, .eventLoop {}, .eventLoop {}] ++
    destruct

theorem not_deadlock_buildAndDestroy :
    ∃ s outs, Machine.run step {} buildAndDestroy = some (s, outs) ∧
      s.pc (.caller 0) = .joinIdle true ∧ s.idle = .run ∧ ¬ s.Deadlock :=
  ⟨_, _, rfl, rfl, rfl, not_deadlock_of_safe buildAndDestroy _ _ (by decide) rfl⟩

/-- The connection for the commands is lost before the idle thread has its own, and the
constructor opens it again: it joins the thread, which waits for `m_idlemutex`. -/
theorem not_not_deadlock : ¬ ∀ (acts : List ThreadAct) (s : Threads) (outs : List Unit),
    Machine.run step {} acts = some (s, outs) → ¬ s.Deadlock := by
  intro never
  refine never (construct ++ [.advance (.caller 0) true, .advance (.caller 0) false,
    .advance (.caller 0) false]) _ _ rfl ?_
  exact ⟨.caller 0, .idle, .m_idlemutex, rfl, .inl ⟨⟨true, .inl rfl⟩, rfl⟩,
    .inl (.inr ⟨rfl, rfl, .inl rfl⟩)⟩

end Threads

end Upmpdcli
