import Upmpdcli.OHSndrcvEvents

set_option autoImplicit false

/- Which runs of the Songcast sender leave the services their events. -/
namespace Upmpdcli

namespace EventClient

variable {o o' : EventClient}

/-- Nobody has told the event loop to stop since the thread was last joined. -/
structure Unstopped (o : EventClient) : Prop where
  needstop : o.m_idleneedstop = false
  thread : o.thread ≠ .closing

/-- The idle connection belongs to a live thread. -/
def Sound (o : EventClient) : Prop := o.m_idleconn = true → o.thread.live = true

theorem runs_iff : o.runs = true ↔ o.thread.live = true ∧ o.Unstopped := by
  unfold runs
  rw [Bool.and_eq_true, Bool.and_eq_true, decide_eq_true_eq, Bool.not_eq_true']
  exact ⟨fun ⟨⟨live, thread⟩, needstop⟩ => ⟨live, needstop, thread⟩,
    fun ⟨live, needstop, thread⟩ => ⟨⟨live, thread⟩, needstop⟩⟩

/-- What the steps of its thread and of other threads keep of a client. The thread ends by
itself only when MPD refuses the password. -/
structure Goes (o o' : EventClient) : Prop where
  subs : o'.m_subs = o.m_subs
  sound : o.Sound → o'.Sound
  unstopped : o.Unstopped → o'.Unstopped

theorem goes_next {answer : IdleAnswer} (next : o.next answer = some o') : o.Goes o' := by
  obtain ⟨subs, conn, needstop, thread⟩ := o
  unfold EventClient.next at next
  cases thread with
  | off => cases next
  | ended => cases next
  | top =>
      cases answer with
      | fine =>
          cases next
          exact ⟨rfl, fun _ _ => rfl, fun same => ⟨same.needstop, fun behind => nomatch behind⟩⟩
      | nothing =>
          cases next
          exact ⟨rfl, fun _ connected => (nomatch connected), fun same => ⟨same.needstop, same.thread⟩⟩
      | refused =>
          cases next
          exact ⟨rfl, fun _ connected => (nomatch connected),
            fun same => ⟨same.needstop, fun behind => nomatch behind⟩⟩
  | opened =>
      cases next
      exact ⟨rfl, fun _ _ => rfl, fun same => ⟨same.needstop, fun behind => nomatch behind⟩⟩
  | woken =>
      cases next
      exact ⟨rfl, fun _ _ => rfl, fun same => ⟨same.needstop, fun behind => nomatch behind⟩⟩
  | looping =>
      cases needstop with
      | true =>
          cases next
          exact ⟨rfl, fun _ _ => rfl, fun same => nomatch same.needstop⟩
      | false =>
          cases next
          exact ⟨rfl, fun _ _ => rfl, fun _ => ⟨rfl, fun behind => nomatch behind⟩⟩
  | idling =>
      cases answer with
      | fine =>
          cases next
          exact ⟨rfl, fun _ _ => rfl, fun same => ⟨same.needstop, fun behind => nomatch behind⟩⟩
      | nothing | refused =>
          cases needstop with
          | true =>
              cases next
              exact ⟨rfl, fun _ _ => rfl, fun same => nomatch same.needstop⟩
          | false =>
              cases next
              exact ⟨rfl, fun _ _ => rfl, fun _ => ⟨rfl, fun behind => nomatch behind⟩⟩
  | closing =>
      cases next
      exact ⟨rfl, fun _ connected => (nomatch connected), fun same => (same.thread rfl).elim⟩

theorem live_next {answer : IdleAnswer} (next : o.next answer = some o') (unstopped : o.Unstopped)
    (accepted : answer ≠ .refused) : o'.thread.live = true := by
  obtain ⟨subs, conn, needstop, thread⟩ := o
  unfold EventClient.next at next
  cases thread with
  | off => cases next
  | ended => cases next
  | closing => exact absurd rfl unstopped.thread
  | top =>
      cases answer with
      | fine =>
          cases next
          rfl
      | nothing =>
          cases next
          rfl
      | refused => exact absurd rfl accepted
  | opened | woken =>
      cases next
      rfl
  | looping =>
      cases needstop with
      | true => exact nomatch unstopped.needstop
      | false =>
          cases next
          rfl
  | idling =>
      cases needstop with
      | true => exact nomatch unstopped.needstop
      | false =>
          cases answer with
          | fine | nothing | refused =>
              cases next
              rfl

theorem goes_restart (o : EventClient) :
    o.Goes { o with thread := .top } :=
  ⟨rfl, fun _ _ => rfl, fun same => ⟨same.needstop, fun behind => nomatch behind⟩⟩

end EventClient

namespace EventSystem

variable {s t : EventSystem}

/-- The client exists, runs, and has the subscriptions of the services. -/
def Served (s : EventSystem) (p : MpdPtr) : Prop :=
  ∃ o, s.client p = some o ∧ o.runs = true ∧ o.m_subs = s.made

/-- The client exists and has the subscriptions of the services. -/
def Has (s : EventSystem) (p : MpdPtr) : Prop := ∃ o, s.client p = some o ∧ o.m_subs = s.made

def Unstopped (s : EventSystem) (p : MpdPtr) : Prop := ∀ o, s.client p = some o → o.Unstopped

/-- The steps of a call which leave the first client to the device. -/
def own : List EventOp → Bool
  | [] | [.takeOver] => true
  | .clear :: rest | .deleteMpd :: rest | .joinDelete :: rest | .create _ :: rest
  | .forget :: rest => own rest
  | _ => false

/-- Where a run can be. `handing` is the transfer of the subscriptions, in which the client they
come from is stopped first; the loop of `dest` may have to be awaited. -/
inductive Phase : EventSystem → Prop
  | own {s : EventSystem} (device : s.m_mpdcli = .main) (orig : s.origmpd = none)
      (served : s.Served .main) (aux : s.todo.head? ≠ some .joinDelete → s.Unstopped .aux)
      (todo : own s.todo = true) : Phase s
  | active {s : EventSystem} (device : s.m_mpdcli = .aux) (orig : s.origmpd = some .main)
      (served : s.Served .aux) (main : s.Unstopped .main)
      (todo : s.todo = [] ∨ s.todo = [.giveBack, .deleteMpd]) : Phase s
  | handing {s : EventSystem} (dest src : MpdPtr) (other : dest ≠ src) (device : s.m_mpdcli = dest)
      (has : s.Has src) (idle : s.Unstopped dest)
      (orig : dest = .aux → s.origmpd = some .main) (orig' : dest = .main → s.origmpd = none)
      (todo : ∃ rest, rest = (if dest = .main then [.deleteMpd] else []) ∧
        (s.todo = .join src :: .takeSubs dest src :: rest ∨
          s.Unstopped src ∧
            (s.todo = .stopEventLoop src :: .takeSubs dest src :: rest ∨
              s.todo = .takeSubs dest src :: rest))) : Phase s
  | awaiting {s : EventSystem} (dest src : MpdPtr) (other : dest ≠ src) (device : s.m_mpdcli = dest)
      (has : s.Has dest) (idle : s.Unstopped dest) (stopped : s.Unstopped src)
      (orig : dest = .aux → s.origmpd = some .main) (orig' : dest = .main → s.origmpd = none)
      (todo : s.todo = .joinStart dest :: if dest = .main then [.deleteMpd] else []) : Phase s

structure Inv (s : EventSystem) : Prop where
  sound : ∀ p o, s.client p = some o → o.Sound
  phase : s.Phase

section Put

variable {o o' : EventClient} {p q : MpdPtr}

@[simp] theorem client_put_self : (s.put o p).client p = some o := by
  cases p <;> rfl

theorem client_put_other (other : q ≠ p) : (s.put o p).client q = s.client q := by
  cases p <;> cases q
  · exact absurd rfl other
  · rfl
  · rfl
  · exact absurd rfl other

@[simp] theorem put_m_mpdcli : (s.put o p).m_mpdcli = s.m_mpdcli := by
  cases p <;> rfl

@[simp] theorem put_origmpd : (s.put o p).origmpd = s.origmpd := by
  cases p <;> rfl

@[simp] theorem put_made : (s.put o p).made = s.made := by
  cases p <;> rfl

@[simp] theorem put_todo : (s.put o p).todo = s.todo := by
  cases p <;> rfl

theorem client_put_cases {other : EventClient} (found : (s.put o p).client q = some other) :
    q = p ∧ other = o ∨ q ≠ p ∧ s.client q = some other := by
  by_cases same : q = p
  · subst same
    rw [client_put_self] at found
    exact .inl ⟨rfl, (Option.some.inj found).symm⟩
  · rw [client_put_other same] at found
    exact .inr ⟨same, found⟩

theorem sound_put (sound : ∀ p o, s.client p = some o → o.Sound) (new : o.Sound) :
    ∀ q other, (s.put o p).client q = some other → other.Sound := by
  intro q other found
  rcases client_put_cases found with ⟨-, rfl⟩ | ⟨-, old⟩
  · exact new
  · exact sound q other old

theorem Unstopped.put (unstopped : s.Unstopped q) (new : q = p → o.Unstopped) :
    (s.put o p).Unstopped q := by
  intro other found
  rcases client_put_cases found with ⟨same, rfl⟩ | ⟨-, old⟩
  · exact new same
  · exact unstopped other old

theorem Has.put (has : s.Has q) (new : q = p → o.m_subs = s.made) : (s.put o p).Has q := by
  obtain ⟨old, found, subs⟩ := has
  by_cases same : q = p
  · subst same
    exact ⟨o, client_put_self, by rw [put_made, new rfl]⟩
  · exact ⟨old, (client_put_other same).trans found, by rw [put_made, subs]⟩

theorem Served.put (served : s.Served q) (new : q = p → o.runs = true ∧ o.m_subs = s.made) :
    (s.put o p).Served q := by
  obtain ⟨old, found, runs, subs⟩ := served
  by_cases same : q = p
  · subst same
    exact ⟨o, client_put_self, (new rfl).1, by rw [put_made, (new rfl).2]⟩
  · exact ⟨old, (client_put_other same).trans found, runs, by rw [put_made, subs]⟩

theorem Served.has (served : s.Served p) : s.Has p := by
  obtain ⟨o, found, -, subs⟩ := served
  exact ⟨o, found, subs⟩

theorem Served.unstopped (served : s.Served p) : s.Unstopped p := by
  obtain ⟨o, found, runs, -⟩ := served
  intro other same
  cases found.symm.trans same
  exact (EventClient.runs_iff.mp runs).2

/-- A step of one client, after which that of the device still runs. -/
theorem Phase.put (phase : s.Phase) (found : s.client p = some o) (goes : o.Goes o')
    (runs : p = s.m_mpdcli → o.runs = true → o'.runs = true) : (s.put o' p).Phase := by
  have unstopped {q : MpdPtr} (old : s.Unstopped q) : (s.put o' p).Unstopped q :=
    Unstopped.put old fun same => goes.unstopped (old o (same ▸ found))
  have has {q : MpdPtr} (old : s.Has q) : (s.put o' p).Has q := by
    refine old.put fun same => ?_
    obtain ⟨there, found', subs⟩ := old
    subst same
    cases found.symm.trans found'
    exact goes.subs.trans subs
  have served {q : MpdPtr} (device : s.m_mpdcli = q) (old : s.Served q) :
      (s.put o' p).Served q := by
    refine old.put fun same => ?_
    obtain ⟨there, found', ran, subs⟩ := old
    subst same
    cases found.symm.trans found'
    exact ⟨runs device.symm ran, goes.subs.trans subs⟩
  cases phase with
  | own device orig old aux todo =>
      refine .own ?_ ?_ (served device old) (fun head => ?_) ?_
      · rw [put_m_mpdcli, device]
      · rw [put_origmpd, orig]
      · rw [put_todo] at head
        exact unstopped (aux head)
      · rw [put_todo, todo]
  | active device orig old main todo =>
      refine .active ?_ ?_ (served device old) (unstopped main) ?_
      · rw [put_m_mpdcli, device]
      · rw [put_origmpd, orig]
      · rw [put_todo]
        exact todo
  | handing dest src other device old idle orig orig' todo =>
      refine .handing dest src other ?_ (has old) (unstopped idle) ?_ ?_ ?_
      · rw [put_m_mpdcli, device]
      · rw [put_origmpd]
        exact orig
      · rw [put_origmpd]
        exact orig'
      · rw [put_todo]
        obtain ⟨rest, same, todo⟩ := todo
        exact ⟨rest, same, todo.imp_right fun before => ⟨unstopped before.1, before.2⟩⟩
  | awaiting dest src other device old idle stopped orig orig' todo =>
      refine .awaiting dest src other ?_ (has old) (unstopped idle) (unstopped stopped) ?_ ?_ ?_
      · rw [put_m_mpdcli, device]
      · rw [put_origmpd]
        exact orig
      · rw [put_origmpd]
        exact orig'
      · rw [put_todo, todo]

end Put

section Proceed

variable {rest : List EventOp} {destroyed : Bool}

/-- The next step of a call leads to a state of the invariant and destroys no live thread. -/
def Leads (ran : Option (EventSystem × Bool)) : Prop :=
  ∀ t destroyed, ran = some (t, destroyed) → destroyed = false ∧ t.Inv

theorem leads_some (inv : t.Inv) : Leads (some (t, false)) := by
  rintro _ _ ⟨⟩
  exact ⟨rfl, inv⟩

theorem leads_none : Leads none := fun _ _ absurd => nomatch absurd

theorem sound_needstop {o : EventClient} (sound : o.Sound) :
    EventClient.Sound { o with m_idleneedstop := true } := sound

/-- The auxiliary client goes, or is going to be joined. -/
theorem leads_deleteMpd (sound : ∀ p o, s.client p = some o → o.Sound)
    (device : s.m_mpdcli = .main) (orig : s.origmpd = none) (served : s.Served .main)
    (todo : own s.todo = true)
    (safe : s.aux.all (fun o => o.m_idleconn || !o.thread.live) = true) :
    Leads (s.exec .deleteMpd) := by
  have gone : ({ s with aux := none } : EventSystem).Inv := by
    refine ⟨fun p o found => ?_, .own device orig served (fun _ o found => nomatch found) todo⟩
    cases p with
    | main => exact sound .main o found
    | aux => cases found
  unfold exec
  cases there : s.aux with
  | none =>
      have same : s = { s with aux := none } := by rw [← there]
      rw [same]
      exact leads_some gone
  | some o =>
      dsimp only
      split
      · refine leads_some ⟨fun p other found => ?_, ?_⟩
        · cases p with
          | main => exact sound .main other found
          | aux =>
              cases found
              exact sound_needstop (sound .aux o there)
        · exact .own device orig served (fun head => absurd rfl head) todo
      · rename_i down
        rw [there] at safe
        have dead : o.thread.live = false := by simpa [down] using safe
        rw [dead]
        exact leads_some gone

/-- Both ways in which the subscriptions begin to be taken. -/
theorem leads_takeEvents {dest src : MpdPtr} (sound : ∀ p o, s.client p = some o → o.Sound)
    (other : dest ≠ src) (device : s.m_mpdcli = dest) (served : s.Served src)
    (idle : s.Unstopped dest) (orig : dest = .aux → s.origmpd = some .main)
    (orig' : dest = .main → s.origmpd = none)
    (rest : s.todo = if dest = .main then [.deleteMpd] else [])
    (safe : (s.client src).any (·.m_idleconn) = true) :
    Leads ((s.takeEvents dest src).map (·, false)) := by
  obtain ⟨o, found, runs, subs⟩ := served
  have connected : o.m_idleconn = true := by rwa [found] at safe
  unfold takeEvents
  rw [found, Option.map_some, Option.map_some, if_pos connected]
  refine leads_some ⟨sound, .handing dest src other device ⟨o, found, subs⟩ idle orig orig'
    ⟨s.todo, rest, .inr ⟨fun o' found' => ?_, .inl rfl⟩⟩⟩
  cases found.symm.trans found'
  exact (EventClient.runs_iff.mp runs).2

theorem inv_of_taken {dest src : MpdPtr} (sound : ∀ p o, s.client p = some o → o.Sound)
    (other : dest ≠ src) (device : s.m_mpdcli = dest) (served : s.Served dest)
    (stopped : s.Unstopped src) (orig : dest = .aux → s.origmpd = some .main)
    (orig' : dest = .main → s.origmpd = none)
    (rest : s.todo = if dest = .main then [.deleteMpd] else []) : s.Inv := by
  refine ⟨sound, ?_⟩
  cases dest with
  | main =>
      cases src with
      | main => exact absurd rfl other
      | aux =>
          rw [if_pos rfl] at rest
          exact .own device (orig' rfl) served (fun _ => stopped) (by rw [rest]; rfl)
  | aux =>
      cases src with
      | main => exact .active device (orig rfl) served stopped (.inl rest)
      | aux => exact absurd rfl other

theorem leads_takeSubs {dest src : MpdPtr} (sound : ∀ p o, s.client p = some o → o.Sound)
    (other : dest ≠ src) (device : s.m_mpdcli = dest) (has : s.Has src) (idle : s.Unstopped dest)
    (stopped : s.Unstopped src) (orig : dest = .aux → s.origmpd = some .main)
    (orig' : dest = .main → s.origmpd = none)
    (rest : s.todo = if dest = .main then [.deleteMpd] else []) :
    Leads (s.exec (.takeSubs dest src)) := by
  obtain ⟨from_, found, subs⟩ := has
  unfold exec
  dsimp only
  cases there : s.client dest with
  | none => exact leads_none
  | some o =>
      rw [found]
      dsimp only
      refine leads_some ?_
      let o' : EventClient := { o with m_subs := from_.m_subs }
      have unstopped := idle o there
      have unstopped' : o'.Unstopped := ⟨unstopped.needstop, unstopped.thread⟩
      have stopped' {new : EventClient} : (s.put new dest).Unstopped src :=
        stopped.put fun same => absurd same.symm other
      have served {new : EventClient} (runs : new.runs = true) (same : new.m_subs = from_.m_subs) :
          (s.put new dest).Served dest :=
        ⟨new, client_put_self, runs, by rw [put_made, same, subs]⟩
      have rest' {new : EventClient} :
          (s.put new dest).todo = if dest = .main then [.deleteMpd] else [] := by
        rw [put_todo, rest]
      have device' {new : EventClient} : (s.put new dest).m_mpdcli = dest := by
        rw [put_m_mpdcli, device]
      unfold startEventLoop
      split
      · rename_i connected
        have runs : o'.runs = true :=
          EventClient.runs_iff.mpr ⟨sound dest o there connected, unstopped'⟩
        exact inv_of_taken (sound_put sound (sound dest o there)) other device'
          (served runs rfl) stopped' (by rwa [put_origmpd]) (by rwa [put_origmpd]) rest'
      · split
        · refine ⟨?_, .awaiting dest src other device' ⟨o', ?_, ?_⟩ ?_ stopped' ?_ ?_ ?_⟩
          · exact sound_put sound (sound dest o there)
          · exact client_put_self
          · exact subs.trans put_made.symm
          · exact idle.put fun _ => unstopped'
          · rwa [put_origmpd]
          · rwa [put_origmpd]
          · exact congrArg _ rest
        · have runs : EventClient.runs { o' with thread := .top } = true :=
            EventClient.runs_iff.mpr
              ⟨rfl, unstopped.needstop, fun closing => nomatch closing⟩
          exact inv_of_taken (sound_put sound fun _ => rfl) other device' (served runs rfl) stopped'
            (by rwa [put_origmpd]) (by rwa [put_origmpd]) rest'

/-- While the first client stays that of the device. -/
theorem leads_own {op : EventOp} (sound : ∀ p o, s.client p = some o → o.Sound)
    (device : s.m_mpdcli = .main) (orig : s.origmpd = none) (served : s.Served .main)
    (aux : some op ≠ some .joinDelete → s.Unstopped .aux) (todo : own (op :: s.todo) = true)
    (safe : s.SafeOp (op :: s.todo)) :
    Leads (s.exec op) := by
  cases op with
  | clear =>
      refine leads_some ⟨sound, .own ?_ rfl served (fun _ => aux (fun same => nomatch same)) todo⟩
      rw [orig, device]
      rfl
  | deleteMpd => exact leads_deleteMpd sound device orig served todo safe
  | joinDelete =>
      unfold exec
      cases s.aux with
      | none => exact leads_none
      | some o =>
          dsimp only
          split
          · refine leads_some ⟨fun p o found => ?_, .own device orig served
              (fun _ o found => nomatch found) todo⟩
            cases p with
            | main => exact sound .main o found
            | aux => cases found
          · exact leads_none
  | create connects =>
      refine leads_some ⟨fun p o found => ?_, .own device orig served (fun _ o found => ?_) todo⟩
      · cases p with
        | main => exact sound .main o found
        | aux =>
            cases found
            exact fun absurd => nomatch absurd
      · cases found
        refine ⟨rfl, ?_⟩
        cases connects with
        | true => exact fun closing => nomatch closing
        | false => exact fun closing => nomatch closing
  | takeOver =>
      have last : s.todo = [] := by
        cases rest : s.todo with
        | nil => rfl
        | cons other rest =>
            rw [rest] at todo
            cases todo
      have connected : (s.client s.m_mpdcli).any (·.m_idleconn) = true := safe
      rw [device] at connected
      unfold exec
      rw [device]
      exact leads_takeEvents (s := { s with origmpd := some .main, m_mpdcli := .aux }) sound
        (fun same => nomatch same) rfl served (aux fun same => nomatch same) (fun _ => rfl)
        (fun same => nomatch same) last connected
  | forget =>
      exact leads_some ⟨sound, .own device rfl served (fun _ => aux fun same => nomatch same) todo⟩
  | giveBack | stopEventLoop p | join p | takeSubs dest src | joinStart p => cases todo

theorem leads_join {dest src : MpdPtr} (sound : ∀ p o, s.client p = some o → o.Sound)
    (other : dest ≠ src) (device : s.m_mpdcli = dest) (has : s.Has src) (idle : s.Unstopped dest)
    (orig : dest = .aux → s.origmpd = some .main) (orig' : dest = .main → s.origmpd = none)
    {rest : List EventOp} (last : rest = if dest = .main then [.deleteMpd] else [])
    (todo : s.todo = .takeSubs dest src :: rest) : Leads (s.exec (.join src)) := by
  obtain ⟨o, found, subs⟩ := has
  unfold exec
  dsimp only
  rw [found]
  dsimp only
  split
  · rename_i ended
    have down : o.m_idleconn ≠ true := by
      intro connected
      have live := sound src o found connected
      rw [ended] at live
      cases live
    refine leads_some ⟨sound_put sound fun connected => absurd connected down, ?_⟩
    refine .handing dest src other ?_ ⟨_, client_put_self, ?_⟩ ?_ ?_ ?_
      ⟨rest, last, .inr ⟨?_, .inr ?_⟩⟩
    · rw [put_m_mpdcli, device]
    · rw [put_made]
      exact subs
    · exact idle.put fun same => absurd same other
    · rwa [put_origmpd]
    · rwa [put_origmpd]
    · intro other' found'
      rw [client_put_self] at found'
      cases found'
      exact ⟨rfl, fun closing => nomatch closing⟩
    · rw [put_todo, todo]
  · exact leads_none

theorem leads_stopEventLoop {dest src : MpdPtr} (sound : ∀ p o, s.client p = some o → o.Sound)
    (other : dest ≠ src) (device : s.m_mpdcli = dest) (has : s.Has src) (idle : s.Unstopped dest)
    (stopped : s.Unstopped src) (orig : dest = .aux → s.origmpd = some .main)
    (orig' : dest = .main → s.origmpd = none) {rest : List EventOp}
    (last : rest = if dest = .main then [.deleteMpd] else [])
    (todo : s.todo = .takeSubs dest src :: rest) : Leads (s.exec (.stopEventLoop src)) := by
  obtain ⟨o, found, subs⟩ := has
  unfold exec
  dsimp only
  rw [found, Option.map_some]
  split
  · refine leads_some ⟨sound_put sound (sound_needstop (sound src o found)), ?_⟩
    refine .handing dest src other ?_ ⟨_, client_put_self, ?_⟩ ?_ ?_ ?_
      ⟨rest, last, .inl (congrArg _ todo)⟩
    · exact put_m_mpdcli.trans device
    · exact subs.trans put_made.symm
    · exact idle.put fun same => absurd same other
    · exact fun same => put_origmpd.trans (orig same)
    · exact fun same => put_origmpd.trans (orig' same)
  · exact leads_some ⟨sound, .handing dest src other device ⟨o, found, subs⟩ idle orig orig'
      ⟨rest, last, .inr ⟨stopped, .inr todo⟩⟩⟩

theorem leads_joinStart {dest src : MpdPtr} (sound : ∀ p o, s.client p = some o → o.Sound)
    (other : dest ≠ src) (device : s.m_mpdcli = dest) (has : s.Has dest) (idle : s.Unstopped dest)
    (stopped : s.Unstopped src) (orig : dest = .aux → s.origmpd = some .main)
    (orig' : dest = .main → s.origmpd = none)
    (rest : s.todo = if dest = .main then [.deleteMpd] else []) :
    Leads (s.exec (.joinStart dest)) := by
  obtain ⟨o, found, subs⟩ := has
  unfold exec
  dsimp only
  rw [found]
  dsimp only
  split
  · exact leads_none
  · have unstopped := idle o found
    have runs : EventClient.runs { o with thread := .top } = true :=
      EventClient.runs_iff.mpr ⟨rfl, unstopped.needstop, fun closing => nomatch closing⟩
    exact leads_some (inv_of_taken (sound_put sound fun _ => rfl) other
      (put_m_mpdcli.trans device) ⟨_, client_put_self, runs, subs.trans put_made.symm⟩
      (stopped.put fun same => absurd same.symm other) (fun same => put_origmpd.trans (orig same))
      (fun same => put_origmpd.trans (orig' same)) (put_todo.trans rest))

theorem leads_proceed (inv : s.Inv) {op : EventOp} {rest : List EventOp}
    (todo : s.todo = op :: rest) (safe : s.SafeOp s.todo) :
    Leads ({ s with todo := rest }.exec op) := by
  obtain ⟨sound, phase⟩ := inv
  cases phase with
  | own device orig served aux listed =>
      rw [todo] at aux listed safe
      refine leads_own (s := { s with todo := rest }) sound device orig served aux listed ?_
      cases op with
      | takeOver | deleteMpd => exact safe
      | giveBack => cases listed
      | clear | joinDelete | create connects | forget | stopEventLoop p => exact trivial
      | join p | takeSubs dest src | joinStart p => exact trivial
  | active device orig served main listed =>
      rcases listed with none | giving
      · rw [none] at todo
        cases todo
      · rw [giving] at todo
        cases todo
        have connected : s.aux.any (·.m_idleconn) = true := by rwa [giving] at safe
        unfold exec
        dsimp only
        rw [orig]
        exact leads_takeEvents
          (s := { s with todo := [.deleteMpd], m_mpdcli := .main, origmpd := none }) sound
          (fun same => nomatch same) rfl served main (fun same => nomatch same) (fun _ => rfl) rfl
          connected
  | handing dest src other device has idle orig orig' listed =>
      obtain ⟨behind, last, joining | ⟨stopped, stopping | taking⟩⟩ := listed
      · rw [joining] at todo
        cases todo
        exact leads_join (s := { s with todo := .takeSubs dest src :: behind }) sound other device
          has idle orig orig' last rfl
      · rw [stopping] at todo
        cases todo
        exact leads_stopEventLoop (s := { s with todo := .takeSubs dest src :: behind }) sound other
          device has idle stopped orig orig' last rfl
      · rw [taking] at todo
        cases todo
        exact leads_takeSubs (s := { s with todo := rest }) sound other device has idle stopped orig
          orig' last
  | awaiting dest src other device has idle stopped orig orig' listed =>
      rw [listed] at todo
      cases todo
      exact leads_joinStart (s := { s with todo := if dest = .main then [.deleteMpd] else [] }) sound
        other device has idle stopped orig orig' rfl

end Proceed

theorem own_startOps (internal isender : Bool) (env : StartSteps) :
    own (startOps internal isender env) = true := by
  obtain ⟨script, connects, receiver⟩ := env
  cases internal <;> cases isender <;> cases script <;> cases connects <;> cases receiver <;> rfl

/-- Between two calls the device uses its own client, or the auxiliary one. -/
theorem Phase.of_idle (phase : s.Phase) (rest : s.todo = []) :
    s.m_mpdcli = .main ∧ s.origmpd = none ∧ s.Served .main ∧ s.Unstopped .aux ∨
      s.m_mpdcli = .aux ∧ s.origmpd = some .main ∧ s.Served .aux ∧ s.Unstopped .main := by
  cases phase with
  | own device orig served aux _ =>
      refine .inl ⟨device, orig, served, aux ?_⟩
      rw [rest]
      exact fun same => nomatch same
  | active device orig served main _ => exact .inr ⟨device, orig, served, main⟩
  | handing dest src _ _ _ _ _ _ todo =>
      obtain ⟨behind, -, joining | ⟨-, stopping | taking⟩⟩ := todo
      · exact nomatch rest.symm.trans joining
      · exact nomatch rest.symm.trans stopping
      · exact nomatch rest.symm.trans taking
  | awaiting dest src _ _ _ _ _ _ _ todo => exact nomatch rest.symm.trans todo

theorem Inv.served (inv : s.Inv) (rest : s.todo = []) : s.served = true := by
  have served {p : MpdPtr} (device : s.m_mpdcli = p) (served : s.Served p) : s.served = true := by
    obtain ⟨o, found, runs, subs⟩ := served
    unfold EventSystem.served
    rw [device, found, Option.any_some, runs, Bool.true_and, decide_eq_true_eq]
    exact subs
  rcases inv.phase.of_idle rest with ⟨device, -, there, -⟩ | ⟨device, -, there, -⟩
  · exact served device there
  · exact served device there

theorem Inv.start (inv : s.Inv) (rest : s.todo = []) (orig : s.origmpd = none) (internal : Bool)
    (env : StartSteps) :
    ({ s with isender := s.isender || internal, todo := startOps internal s.isender env } :
      EventSystem).Inv := by
  refine ⟨inv.sound, ?_⟩
  rcases inv.phase.of_idle rest with ⟨device, orig, served, aux⟩ | ⟨-, orig', -⟩
  · exact .own device orig served (fun _ => aux) (own_startOps internal s.isender env)
  · exact nomatch orig.symm.trans orig'

theorem Inv.stop (inv : s.Inv) (rest : s.todo = []) :
    ({ s with isender := false, todo := s.stopOps } : EventSystem).Inv := by
  refine ⟨inv.sound, ?_⟩
  rcases inv.phase.of_idle rest with ⟨device, orig, served, aux⟩ | ⟨device, orig, served, main⟩
  · refine .own device orig served (fun _ => aux) ?_
    show own s.stopOps = true
    unfold stopOps
    rw [orig]
    rfl
  · have there : s.Served .aux := served
    obtain ⟨o, found, -⟩ := there
    have there : s.aux = some o := found
    refine .active device orig served main (.inr ?_)
    show s.stopOps = _
    unfold stopOps
    rw [orig, there]
    rfl

theorem Inv.subscribe (inv : s.Inv) (rest : s.todo = []) {o : EventClient}
    (found : s.client s.m_mpdcli = some o) (sub : Nat) :
    ({ s.put { o with m_subs := o.m_subs ++ [sub] } s.m_mpdcli with
        made := s.made ++ [sub] } : EventSystem).Inv := by
  refine ⟨sound_put inv.sound (inv.sound _ o found), ?_⟩
  rcases inv.phase.of_idle rest with ⟨device, orig, served, aux⟩ | ⟨device, orig, served, main⟩
  · obtain ⟨o', found', runs, subs⟩ := served
    rw [device] at found ⊢
    cases found.symm.trans found'
    refine .own device orig ⟨_, rfl, runs, ?_⟩ (fun _ => aux) ?_
    · exact congrArg (· ++ [sub]) subs
    · show own s.todo = true
      rw [rest]
      rfl
  · obtain ⟨o', found', runs, subs⟩ := served
    rw [device] at found ⊢
    cases found.symm.trans found'
    refine .active device orig ⟨_, rfl, runs, ?_⟩ main (.inl rest)
    exact congrArg (· ++ [sub]) subs

theorem Inv.put {o o' : EventClient} {p : MpdPtr} (inv : s.Inv) (found : s.client p = some o)
    (goes : o.Goes o') (runs : p = s.m_mpdcli → o.runs = true → o'.runs = true) :
    (s.put o' p).Inv :=
  ⟨sound_put inv.sound (goes.sound (inv.sound p o found)), inv.phase.put found goes runs⟩

/-- Every guarded step keeps the invariant, and a call which returns leaves the services served. -/
theorem Inv.step {ohrcv : Bool} {action : EventAct} {destroyed : Bool} (inv : s.Inv)
    (safe : Safe s action t destroyed)
    (taken : EventSystem.step ohrcv s action = some (t, destroyed)) :
    t.Inv ∧ Survives s action t destroyed := by
  unfold EventSystem.step at taken
  cases action with
  | start internal env =>
      dsimp only at taken
      split at taken
      · rename_i rest
        cases taken
        have inv' : (if ohrcv then
            { s with isender := s.isender || internal, todo := startOps internal s.isender env }
            else s).Inv := by
          split
          · exact inv.start rest safe internal env
          · exact inv
        exact ⟨inv', rfl, fun ended => inv'.served ended⟩
      · cases taken
  | stop =>
      dsimp only at taken
      split at taken
      · rename_i rest
        cases taken
        have inv' : (if ohrcv then { s with isender := false, todo := s.stopOps } else s).Inv := by
          split
          · exact inv.stop rest
          · exact inv
        exact ⟨inv', rfl, fun ended => inv'.served ended⟩
      · cases taken
  | proceed =>
      dsimp only at taken
      split at taken
      · cases taken
      · rename_i op rest todo
        obtain ⟨alive, inv'⟩ := leads_proceed inv todo safe t destroyed taken
        exact ⟨inv', alive, fun ended => inv'.served ended⟩
  | thread p answer =>
      dsimp only at taken
      split at taken
      · rename_i o found
        split at taken
        · cases taken
        · obtain ⟨o', next, same⟩ := Option.map_eq_some_iff.mp taken
          cases same
          refine ⟨inv.put found (EventClient.goes_next next) fun device runs => ?_, rfl, trivial⟩
          obtain ⟨-, unstopped⟩ := EventClient.runs_iff.mp runs
          exact EventClient.runs_iff.mpr ⟨EventClient.live_next next unstopped (safe device),
            (EventClient.goes_next next).unstopped unstopped⟩
      · cases taken
  | reconnect p =>
      dsimp only at taken
      split at taken
      · rename_i o found
        split at taken
        · cases taken
          exact ⟨inv, rfl, trivial⟩
        · split at taken
          · cases taken
          · cases taken
            refine ⟨inv.put found o.goes_restart fun _ runs => ?_, rfl, trivial⟩
            obtain ⟨-, unstopped⟩ := EventClient.runs_iff.mp runs
            exact EventClient.runs_iff.mpr ⟨rfl, o.goes_restart.unstopped unstopped⟩
      · cases taken
  | subscribe sub =>
      dsimp only at taken
      split at taken
      · rename_i o found
        split at taken
        · rename_i rest
          cases taken
          exact ⟨inv.subscribe rest found sub, rfl, trivial⟩
        · cases taken
      · cases taken

theorem inv_initial : ({} : EventSystem).Inv := by
  refine ⟨fun p o found => ?_, .own rfl rfl ⟨_, rfl, rfl, rfl⟩ (fun _ o found => nomatch found) rfl⟩
  cases p with
  | main =>
      cases found
      exact fun _ => rfl
  | aux => cases found

/-- In such a run the services have their events after each call, and no client is destroyed with a
live thread. -/
theorem survives_of_safe (ohrcv : Bool) (actions : List EventAct)
    (safe : Machine.Along Safe (step ohrcv) {} actions) :
    Machine.Along Survives (step ohrcv) {} actions := by
  have preserve (s : EventSystem) (action : EventAct) (t : EventSystem) (destroyed : Bool)
      (inv : s.Inv) (safe : Safe s action t destroyed)
      (taken : step ohrcv s action = some (t, destroyed)) :
      t.Inv ∧ Survives s action t destroyed := inv.step safe taken
  exact Machine.along_of_invariant preserve {} actions inv_initial safe

/-- The internal source is started and stopped while both threads are connected. -/
theorem survives_internal :
    ∃ actions, (Machine.run (step true) {} actions).isSome = true ∧
      EventAct.start true {} ∈ actions ∧ EventAct.stop ∈ actions ∧
      Machine.Along Survives (step true) {} actions :=
  ⟨[.subscribe 1, .thread .main .fine, .start true {}, .proceed, .proceed, .thread .aux .fine,
      .proceed, .proceed, .thread .main .fine, .thread .main .fine, .thread .main .fine, .proceed,
      .proceed, .stop, .proceed, .proceed, .thread .aux .fine, .thread .aux .fine,
      .thread .aux .fine, .proceed, .proceed, .proceed, .subscribe 2],
    by decide, by decide, by decide, survives_of_safe true _ (by decide)⟩

/-- The subscriptions are not taken from a client which is not connected yet. When the receiver
fails, the new client is destroyed before its thread has connected. Started again, the sender
forgets the client of the device, which is destroyed when it is stopped. -/
theorem not_survives :
    let switched : List EventAct :=
      [.subscribe 1, .thread .main .fine, .start true {}, .proceed, .proceed, .thread .aux .fine,
        .proceed, .proceed, .thread .main .fine, .thread .main .fine, .thread .main .fine, .proceed,
        .proceed]
    ¬ Machine.Along Survives (step true) {}
        [.subscribe 1, .start true {}, .proceed, .proceed, .proceed] ∧
      ¬ Machine.Along Survives (step true) {}
        [.start true { receiver := false }, .proceed, .proceed, .proceed, .proceed] ∧
      ¬ Machine.Along Survives (step true) {}
        (switched ++ [.start false {}, .proceed, .thread .aux .fine, .stop, .proceed,
          .thread .aux .fine, .thread .aux .fine, .proceed]) := by
  decide

end EventSystem

end Upmpdcli
