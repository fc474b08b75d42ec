import Upmpdcli.Lib.Machine
import Upmpdcli.OHSndrcv

set_option autoImplicit false

/- The event subscriptions and the event threads of the two clients of MPD, while the Songcast
sender is started and stopped. -/
namespace Upmpdcli

/-- Where the thread of `eventLoop` is: going to open the idle connection, to request the status,
at the head of the loop, in `mpd_run_idle_mask`, told of changes, behind the loop. A thread which
has ended can still be joined. -/
inductive EventThread
  | off
  | top
  | opened
  | looping
  | idling
  | woken
  | closing
  | ended
deriving DecidableEq

/-- What MPD answers on the idle connection: fine, no connection or no change, wrong password. -/
inductive IdleAnswer
  | fine
  | nothing
  | refused
deriving DecidableEq

/-- What the events of an `MPDCli` depend on. The subscriptions have numbers. -/
structure EventClient where
  m_subs : List Nat := []
  m_idleconn : Bool := false
  m_idleneedstop : Bool := false
  thread : EventThread := .off
deriving DecidableEq

def EventThread.live : EventThread → Bool
  | .off | .ended => false
  | .top | .opened | .looping | .idling | .woken | .closing => true

namespace EventClient

/-- The next step of `eventLoop`. -/
def next (o : EventClient) (answer : IdleAnswer) : Option EventClient :=
  match o.thread with
  | .off | .ended => none
  | .top =>
      match answer with
      | .fine => some { o with m_idleconn := true, thread := .opened }
      | .nothing => some { o with m_idleconn := false }
      | .refused => some { o with m_idleconn := false, thread := .ended }
  | .opened | .woken => some { o with thread := .looping }
  | .looping =>
      if o.m_idleneedstop then some { o with m_idleneedstop := false, thread := .closing }
      else some { o with thread := .idling }
  | .idling =>
      match answer with
      | .fine => some { o with thread := .woken }
      | .nothing | .refused =>
          if o.m_idleneedstop then some { o with m_idleneedstop := false, thread := .closing }
          else some { o with thread := .top }
  | .closing => some { o with m_idleconn := false, thread := .ended }

/-- The event loop is running, and has not been told to stop. -/
def runs (o : EventClient) : Bool :=
  o.thread.live && o.thread ≠ .closing && !o.m_idleneedstop

end EventClient

/-- What the thread which executes `start` and `stop` has still to do. `takeOver` and `giveBack`
are what they do to the clients in the end, and the joins wait for the event thread: the one of
`startEventLoop` holds `m_idlemutex`, and the one in the destructor `m_mutex`. -/
inductive EventOp
  | clear
  | deleteMpd
  | joinDelete
  | create (connects : Bool)
  | takeOver
  | forget
  | giveBack
  | stopEventLoop (p : MpdPtr)
  | join (p : MpdPtr)
  | takeSubs (dest src : MpdPtr)
  | joinStart (p : MpdPtr)
deriving DecidableEq

/-- `made` has the subscriptions which the services have made. -/
structure EventSystem where
  main : EventClient := { thread := .top }
  aux : Option EventClient := none
  m_mpdcli : MpdPtr := .main
  origmpd : Option MpdPtr := none
  isender : Bool := false
  made : List Nat := []
  todo : List EventOp := []
deriving DecidableEq

/-- Which steps of `start` succeed: the script, the connection to the new MPD, the receiver.
Whether the state is copied does not matter to it. -/
structure StartSteps where
  script : Bool := true
  connects : Bool := true
  receiver : Bool := true
deriving DecidableEq

/-- A call of `start` with an internal source or an external one, a call of `stop`, the next step
of the call in progress or of an event thread, `openconn` when another thread finds the connection
of a client closed, and a subscription. -/
inductive EventAct
  | start (internal : Bool) (env : StartSteps)
  | stop
  | proceed
  | thread (p : MpdPtr) (answer : IdleAnswer)
  | reconnect (p : MpdPtr)
  | subscribe (sub : Nat)
deriving DecidableEq

namespace EventSystem

def client (s : EventSystem) : MpdPtr → Option EventClient
  | .main => some s.main
  | .aux => s.aux

def put (s : EventSystem) (o : EventClient) : MpdPtr → EventSystem
  | .main => { s with main := o }
  | .aux => { s with aux := some o }

def startOps (internal isender : Bool) (env : StartSteps) : List EventOp :=
  let sndcmd : Bool := !internal || !isender
  if sndcmd && !env.script then [.clear]
  else
    (if sndcmd && internal then [.deleteMpd, .create env.connects] else []) ++
      if sndcmd && internal && !env.connects || !env.receiver then [.clear]
      else if internal then [.takeOver]
      else [.forget]

def stopOps (s : EventSystem) : List EventOp :=
  (if s.origmpd.isSome && s.aux.isSome then [.giveBack] else []) ++ [.deleteMpd]

/-- `dest->takeEvents(src)`. -/
def takeEvents (s : EventSystem) (dest src : MpdPtr) : Option EventSystem :=
  (s.client src).map fun o =>
    if o.m_idleconn then { s with todo := .stopEventLoop src :: .takeSubs dest src :: s.todo } else s

/-- `startEventLoop`, which joins a thread that is not connected yet. -/
def startEventLoop (s : EventSystem) (o : EventClient) (p : MpdPtr) : EventSystem :=
  if o.m_idleconn then s.put o p
  else if o.thread.live then { s.put o p with todo := .joinStart p :: s.todo }
  else s.put { o with thread := .top } p

/-- One step of `start` or `stop`, and whether it destroys a client whose thread is live. A client
which does not exist is not asked. -/
def exec (s : EventSystem) : EventOp → Option (EventSystem × Bool)
  | .clear =>
      some
        ({ s with
            m_mpdcli := s.origmpd.getD s.m_mpdcli, origmpd := none, isender := false
            todo := .deleteMpd :: s.todo }, false)
  | .deleteMpd =>
      match s.aux with
      | none => some (s, false)
      | some o =>
          if o.m_idleconn then
            some
              ({ s with aux := some { o with m_idleneedstop := true }, todo := .joinDelete :: s.todo },
                false)
          else some ({ s with aux := none }, o.thread.live)
  | .joinDelete =>
      match s.aux with
      | some o => if o.thread = .ended then some ({ s with aux := none }, false) else none
      | none => none
  | .create connects =>
      some ({ s with aux := some { thread := if connects then .top else .off } }, false)
  | .takeOver =>
      ({ s with origmpd := some s.m_mpdcli, m_mpdcli := .aux }.takeEvents .aux s.m_mpdcli).map (·, false)
  | .forget => some ({ s with origmpd := none }, false)
  | .giveBack =>
      match s.origmpd with
      | some p => ({ s with m_mpdcli := p, origmpd := none }.takeEvents p .aux).map (·, false)
      | none => some (s, false)
  | .stopEventLoop p =>
      (s.client p).map fun o =>
        if o.m_idleconn then
          ({ s.put { o with m_idleneedstop := true } p with todo := .join p :: s.todo }, false)
        else (s, false)
  | .join p =>
      match s.client p with
      | some o =>
          if o.thread = .ended then
            some (s.put { o with m_idleneedstop := false, thread := .off } p, false)
          else none
      | none => none
  | .takeSubs dest src =>
      match s.client dest, s.client src with
      | some o, some from_ => some (s.startEventLoop { o with m_subs := from_.m_subs } dest, false)
      | _, _ => none
  | .joinStart p =>
      match s.client p with
      | some o => if o.thread.live then none else some (s.put { o with thread := .top } p, false)
      | none => none

/-- The thread needs a lock which the call in progress holds. -/
def blocked (s : EventSystem) (o : EventClient) (p : MpdPtr) : Bool :=
  match o.thread with
  | .top => s.todo.head? = some (.joinStart p)
  | .opened | .woken => p = .aux && s.todo.head? = some .joinDelete
  | .off | .looping | .idling | .closing | .ended => false

/-- `ohrcv` is whether there is a receiver service. -/
def step (ohrcv : Bool) (s : EventSystem) : EventAct → Option (EventSystem × Bool)
  | .start internal env =>
      if s.todo = [] then
        some
          (if ohrcv then
            { s with
              isender := s.isender || internal, todo := startOps internal s.isender env }
          else s, false)
      else none
  | .stop =>
      if s.todo = [] then
        some (if ohrcv then { s with isender := false, todo := s.stopOps } else s, false)
      else none
  | .proceed =>
      match s.todo with
      | [] => none
      | op :: rest => { s with todo := rest }.exec op
  | .thread p answer =>
      match s.client p with
      | some o => if s.blocked o p then none else (o.next answer).map fun o => (s.put o p, false)
      | none => none
  | .reconnect p =>
      match s.client p with
      | some o =>
          if o.m_idleconn then some (s, false)
          else if o.thread.live then none
          else some (s.put { o with thread := .top } p, false)
      | none => none
  | .subscribe sub =>
      match s.client s.m_mpdcli with
      | some o =>
          if s.todo = [] then
            some
              ({ s.put { o with m_subs := o.m_subs ++ [sub] } s.m_mpdcli with
                  made := s.made ++ [sub] }, false)
          else none
      | none => none

/-- The client which the device uses exists, runs, and has the subscriptions of the services. -/
def served (s : EventSystem) : Bool :=
  (s.client s.m_mpdcli).any fun o => o.runs && o.m_subs = s.made

/-- What is wanted of each step: no client is destroyed with a live thread, and the services are
served whenever a call has returned. -/
def Survives (_ : EventSystem) (action : EventAct) (t : EventSystem) (destroyed : Bool) : Prop :=
  destroyed = false ∧
    match action with
    | .start .. | .stop | .proceed => t.todo = [] → t.served = true
    | .thread .. | .reconnect _ | .subscribe _ => True

instance (s t : EventSystem) (destroyed : Bool) : ∀ action, Decidable (Survives s action t destroyed)
  | .start .. | .stop | .proceed => inferInstanceAs (Decidable (_ ∧ (_ → _)))
  | .thread .. | .reconnect _ | .subscribe _ => inferInstanceAs (Decidable (_ ∧ True))

/-- The condition on the next step of a call: the client whose subscriptions are taken has its idle
connection, and the auxiliary one has it or no live thread when it is destroyed. -/
def SafeOp (s : EventSystem) : List EventOp → Prop
  | .takeOver :: _ => (s.client s.m_mpdcli).any (·.m_idleconn) = true
  | .giveBack :: _ => s.aux.any (·.m_idleconn) = true
  | .deleteMpd :: _ => s.aux.all (fun o => o.m_idleconn || !o.thread.live) = true
  | _ => True

/-- The condition on each step. The sender is not started again before it is stopped either, and
MPD takes the password of the client which the device uses. -/
def Safe (s : EventSystem) (action : EventAct) (_ : EventSystem) (_ : Bool) : Prop :=
  match action with
  | .start .. => s.origmpd = none
  | .proceed => s.SafeOp s.todo
  | .thread p answer => p = s.m_mpdcli → answer ≠ .refused
  | .stop | .reconnect _ | .subscribe _ => True

instance (s : EventSystem) : ∀ ops, Decidable (s.SafeOp ops)
  | .takeOver :: _ | .giveBack :: _ | .deleteMpd :: _ => inferInstanceAs (Decidable (_ = true))
  | [] | .clear :: _ | .joinDelete :: _ | .create _ :: _ | .forget :: _ | .stopEventLoop _ :: _ =>
      .isTrue trivial
  | .join _ :: _ | .takeSubs _ _ :: _ | .joinStart _ :: _ => .isTrue trivial

instance (s t : EventSystem) (destroyed : Bool) : ∀ action, Decidable (Safe s action t destroyed)
  | .start .. => inferInstanceAs (Decidable (_ = _))
  | .proceed => inferInstanceAs (Decidable (s.SafeOp s.todo))
  | .thread .. => inferInstanceAs (Decidable (_ → _))
  | .stop | .reconnect _ | .subscribe _ => .isTrue trivial

end EventSystem

end Upmpdcli
