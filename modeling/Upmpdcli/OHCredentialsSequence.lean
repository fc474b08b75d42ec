import Std.Data.String.ToInt
import Upmpdcli.OHCredentialsTokens

set_option autoImplicit false

/- The sequence number of the Credentials service, which tells the control points that they have
to read the credentials again. -/
namespace Upmpdcli

/-- What happens to the service: its actions, the subscriptions, and the events after a change of
the state of MPD. -/
inductive CredsEvent
  | action (env : CredsEnv) (action : OHCredentials.Action)
  | subscribe
  | onEvent

/-- A run of the service, with the sequence numbers it has had. -/
structure SequenceRun where
  m : OHCredentials
  had : List Int

namespace SequenceRun

open OHCredentials

def start (env : CredsEnv) (pubkey : String)
    (screds : List (String × String × String × String)) : SequenceRun where
  m := tryLoad env { pubkey, screds }
  had := [1]

def execute (m : OHCredentials) : CredsEvent → Option (OHCredentials × CredsReply)
  | .action env action => m.execute env action
  | .subscribe => some (m.subscribe, ⟨UPNP_E_SUCCESS, [], []⟩)
  | .onEvent => some (m.onEvent.1, ⟨UPNP_E_SUCCESS, [], m.onEvent.2⟩)

def step (s : SequenceRun) (event : CredsEvent) : Option (SequenceRun × CredsReply) :=
  (execute s.m event).map fun done => (⟨done.1, done.1.seq :: s.had⟩, done.2)

/-- The user name, the password and the flag which `Get` would report. -/
def reported (env : CredsEnv) (m : OHCredentials) (id : String) :
    Option String × Option String × Option String :=
  let args := (m.actGet env (some id)).2.args
  (args.lookup "UserName", args.lookup "Password", args.lookup "Enabled")

/-- A change of what `Get` reports comes with a new sequence number, and an event tells it. -/
def SequenceLaw (s : SequenceRun) (_ : CredsEvent) (t : SequenceRun) (reply : CredsReply) : Prop :=
  (∃ env id, reported env s.m id ≠ reported env t.m id) →
    t.m.seq ∉ s.had ∧
      ∃ event ∈ reply.events, ("SequenceNumber", toString t.m.seq) ∈ event

/-- The user name and the encrypted password of a service. -/
def shown (m : OHCredentials) (id : String) : String × String :=
  match m.creds.lookup id with
  | none => ("", "")
  | some cred => (cred.user, cred.encryptedpass)

/-- The service does not get a token for these credentials. -/
def refuses (env : CredsEnv) (cred : ServiceCreds) : Prop :=
  cred.token = "" ∧ ∀ res, cred.authenticate env = some res →
    res "token" = none ∨ res "token" = some "" ∨ res cred.second = none

/-- Credentials which `Get` reports are neither cleared nor erased by a failed login. -/
def Spares (s : SequenceRun) (event : CredsEvent) (_ : SequenceRun) (_ : CredsReply) : Prop :=
  match event with
  | .action _ (.clear (some id)) => (idmap.lookup id).isSome → shown s.m id = ("", "")
  | .action env (.login (some id)) =>
      ∀ cred, s.m.creds.lookup id = some cred → refuses env cred → shown s.m id = ("", "")
  | _ => True

/-- The numbers and the services are known ones. -/
structure Counted (s : SequenceRun) : Prop where
  had : ∀ n ∈ s.had, n ≤ s.m.seq
  told : ∀ told, s.m.m_state.lookup "SequenceNumber" = some told →
    ∃ n, n ≤ s.m.seq ∧ told = toString n
  known : ∀ id cred, s.m.creds.lookup id = some cred →
    (idmap.lookup id).isSome ∧ cred.supported

section Facts

variable {env : CredsEnv} {m m' : OHCredentials} {s t : SequenceRun} {id : String}
  {reply : CredsReply}

theorem reported_eq (known : ∀ id cred, m.creds.lookup id = some cred → (idmap.lookup id).isSome)
    (env : CredsEnv) (id : String) :
    reported env m id =
      if (idmap.lookup id).isSome then (some (shown m id).1, some (shown m id).2, some "1")
      else (none, none, none) := by
  unfold reported actGet shown
  dsimp only
  cases service : idmap.lookup id with
  | none =>
      have kept : m.insertCreds env id "" "" "" = (m, 800) := by
        unfold insertCreds
        rw [service]
      cases there : m.creds.lookup id with
      | none =>
          simp only [kept, there]
          rfl
      | some cred =>
          have inside := known id cred there
          rw [service] at inside
          cases inside
  | some shortid =>
      cases there : m.creds.lookup id with
      | none =>
          let cred := ServiceCreds.make env shortid "" "" ""
          have made : m.insertCreds env id "" "" "" =
              ({ m with creds := VarMap.set m.creds id cred }, 0) := by
            unfold insertCreds
            rw [service, there]
          obtain ⟨user, -, encrypted, -⟩ := ServiceCreds.make_user env shortid "" "" ""
          simp only [made, VarMap.lookup_set, if_true]
          rw [user, encrypted]
          simp [List.lookup_cons]
      | some cred =>
          have kept : m.insertCreds env id "" "" "" = (m, 0) := by
            unfold insertCreds
            rw [service, there]
            rfl
          simp only [kept, there]
          simp [List.lookup_cons]

/-- What is reported depends on what is shown. -/
theorem reported_congr (known : ∀ id cred, m.creds.lookup id = some cred → (idmap.lookup id).isSome)
    (known' : ∀ id cred, m'.creds.lookup id = some cred → (idmap.lookup id).isSome) :
    (∃ env id, reported env m id ≠ reported env m' id) ↔ ∃ id, shown m id ≠ shown m' id := by
  constructor
  · rintro ⟨env, id, differ⟩
    refine ⟨id, fun same => differ ?_⟩
    rw [reported_eq known, reported_eq known', same]
  · rintro ⟨id, differ⟩
    have inside : (idmap.lookup id).isSome := by
      by_contra unknown
      have absent : m.creds.lookup id = none := by
        cases there : m.creds.lookup id with
        | none => rfl
        | some cred => exact absurd (known id cred there) unknown
      have absent' : m'.creds.lookup id = none := by
        cases there : m'.creds.lookup id with
        | none => rfl
        | some cred => exact absurd (known' id cred there) unknown
      exact differ (by rw [shown, shown, absent, absent'])
    refine ⟨⟨fun _ => none, fun _ => false, fun _ _ _ => none, "", true, true⟩, id, fun same => ?_⟩
    rw [reported_eq known, reported_eq known', if_pos inside, if_pos inside] at same
    simp only [Prod.mk.injEq, Option.some.injEq, and_true] at same
    exact differ (Prod.ext same.1 same.2)

theorem lookup_makestate (m : OHCredentials) :
    m.makestate.lookup "SequenceNumber" = some (toString m.seq) := by
  have ids : ("SequenceNumber" == "Ids") = false := by decide
  have pubkey : ("SequenceNumber" == "PublicKey") = false := by decide
  unfold makestate OHServiceKind.makestate OHServiceKind.names
  simp only [List.map_cons, List.lookup_cons, ids, pubkey]
  rfl

/-- An event tells the sequence number when the subscribers were last told another one. -/
theorem onEvent_tells (new : m.m_state.lookup "SequenceNumber" ≠ some (toString m.seq)) :
    ∃ event ∈ m.onEvent.2, ("SequenceNumber", toString m.seq) ∈ event := by
  have member : ("SequenceNumber", toString m.seq) ∈ diffmaps m.m_state m.makestate := by
    rw [diffmaps_eq_diff, VarMap.diff, List.mem_filter]
    refine ⟨?_, by simpa using new⟩
    obtain ⟨before, behind, same, -⟩ := List.lookup_eq_some_iff.mp (lookup_makestate m)
    rw [same]
    simp
  refine ⟨diffmaps m.m_state m.makestate, ?_, member⟩
  unfold onEvent
  dsimp only
  rw [if_neg (List.ne_nil_of_mem member)]
  exact List.mem_singleton.mpr rfl

/-- The token which a login returns. -/
theorem login_eq_empty_iff {cred : ServiceCreds} (supported : cred.supported) :
    (cred.login env).2 = "" ↔ refuses env cred := by
  have known : ¬ cred.servicename ∉ ["qobuz", "tidal"] := not_not_intro supported
  unfold ServiceCreds.login refuses
  rw [if_neg known]
  by_cases held : cred.token = ""
  · rw [if_neg (not_not_intro held)]
    cases answer : cred.authenticate env with
    | none => simp [held]
    | some res =>
        dsimp only
        rw [ServiceCreds.store_pair]
        cases token : res "token" with
        | none => simp [held, token]
        | some value =>
            cases more : res cred.second with
            | none => simp [held, more]
            | some other =>
                have stored : ({ cred with
                    servicedata := VarMap.set (VarMap.set cred.servicedata "token" value)
                      cred.second other } : ServiceCreds).token = value := by
                  rw [ServiceCreds.token_of_servicedata, VarMap.lookup_set,
                    if_neg (Ne.symm cred.second_ne_token), VarMap.lookup_set, if_pos rfl]
                  rfl
                dsimp only
                rw [stored]
                simp [held, token, more]
  · rw [if_pos held]
    simp [held]

end Facts

section Steps

variable {s t : SequenceRun} {m' : OHCredentials} {reply : CredsReply} {event : CredsEvent}
  {env : CredsEnv}

def Known (m : OHCredentials) : Prop :=
  ∀ id cred, m.creds.lookup id = some cred → (idmap.lookup id).isSome ∧ cred.supported

theorem Counted.next (counted : s.Counted) (grown : s.m.seq ≤ m'.seq)
    (state : m'.m_state = s.m.m_state ∨
      m'.m_state.lookup "SequenceNumber" = some (toString m'.seq))
    (known : Known m') : Counted ⟨m', m'.seq :: s.had⟩ := by
  refine ⟨?_, ?_, known⟩
  · intro n member
    rcases List.mem_cons.mp member with rfl | old
    · exact Int.le_refl _
    · exact Int.le_trans (counted.had n old) grown
  · intro told there
    rcases state with same | now
    · dsimp only at there
      rw [same] at there
      obtain ⟨n, below, told_eq⟩ := counted.told told there
      exact ⟨n, Int.le_trans below grown, told_eq⟩
    · dsimp only at there
      rw [now] at there
      exact ⟨m'.seq, Int.le_refl _, (Option.some.inj there).symm⟩

theorem law_iff (counted : s.Counted) (known : Known m') :
    SequenceLaw s event ⟨m', m'.seq :: s.had⟩ reply ↔
      ((∃ id, shown s.m id ≠ shown m' id) → m'.seq ∉ s.had ∧
        ∃ event ∈ reply.events, ("SequenceNumber", toString m'.seq) ∈ event) := by
  unfold SequenceLaw
  rw [reported_congr (fun id cred there => (counted.known id cred there).1)
    fun id cred there => (known id cred there).1]

/-- Nothing has changed. -/
theorem law_of_shown (counted : s.Counted) (known : Known m')
    (same : ∀ id, shown s.m id = shown m' id) :
    SequenceLaw s event ⟨m', m'.seq :: s.had⟩ reply := by
  rw [law_iff counted known]
  rintro ⟨id, differ⟩
  exact absurd (same id) differ

theorem law_of_announced (counted : s.Counted) (known : Known m')
    (announced : Announced s.m m' reply.events) :
    SequenceLaw s event ⟨m', m'.seq :: s.had⟩ reply := by
  rw [law_iff counted known]
  intro _
  constructor
  · intro member
    have := counted.had _ member
    have := announced.seq
    omega
  · obtain ⟨n, seq, state, events, -⟩ := announced.told
    rw [events, ← seq]
    refine onEvent_tells ?_
    rw [state]
    intro there
    obtain ⟨k, below, same⟩ := counted.told _ there
    have := announced.seq
    have same_number : n.seq = k := Int.repr_injective same
    omega

/-- No event tells what has changed. -/
theorem law_iff_of_silent (counted : s.Counted) (known : Known m') (silent : reply.events = []) :
    SequenceLaw s event ⟨m', m'.seq :: s.had⟩ reply ↔ ∀ id, shown s.m id = shown m' id := by
  rw [law_iff counted known, silent]
  constructor
  · intro law id
    by_contra differ
    obtain ⟨-, told, member, -⟩ := law ⟨id, differ⟩
    cases member
  · rintro same ⟨id, differ⟩
    exact absurd (same id) differ

theorem shown_congr {m m' : OHCredentials} {id : String}
    (same : m'.creds.lookup id = m.creds.lookup id) : shown m id = shown m' id := by
  rw [shown, shown, same]

/-- What an action does, in the terms of the law: the run goes on, and the law holds just when
the credentials are spared. -/
def Agrees (s : SequenceRun) (event : CredsEvent) (m' : OHCredentials) (reply : CredsReply) :
    Prop :=
  (SequenceLaw s event ⟨m', m'.seq :: s.had⟩ reply ↔
      Spares s event ⟨m', m'.seq :: s.had⟩ reply) ∧ Counted ⟨m', m'.seq :: s.had⟩

theorem agrees_self (counted : s.Counted) (spares : Spares s event ⟨s.m, s.m.seq :: s.had⟩ reply) :
    Agrees s event s.m reply :=
  ⟨⟨fun _ => spares, fun _ => law_of_shown counted counted.known fun _ => rfl⟩,
    counted.next (Int.le_refl _) (.inl rfl) counted.known⟩

theorem agrees_set (counted : s.Counted) {Id UserName Password : Option String}
    (taken : s.m.actSet env Id UserName Password = some (m', reply)) :
    Agrees s (.action env (.set Id UserName Password)) m' reply := by
  rcases actSet_spec taken with ⟨rfl, -⟩ | ⟨id, user, password, plain, m₁, -, -, -, -, inserted,
    done, lookup⟩
  · exact agrees_self counted trivial
  · have announced := announced_actSet taken done
    obtain ⟨inside, cred, before, source⟩ := insertCreds_spec inserted
    have known : Known m' := by
      intro other found there
      rw [lookup] at there
      split at there
      · rename_i same
        rw [before, if_pos rfl, Option.map_some, Option.some.injEq] at there
        subst there same
        refine ⟨inside, ?_⟩
        rcases source with ⟨-, supported, -⟩ | ⟨-, old⟩ | ⟨-, old, there, rfl⟩
        · exact supported
        · exact (counted.known _ _ old).2
        · exact (counted.known _ _ there).2
      · rename_i differ
        rw [before, if_neg differ] at there
        exact counted.known other found there
    refine ⟨⟨fun _ => trivial, fun _ => law_of_announced counted known announced⟩, ?_⟩
    obtain ⟨n, seq, -, -, state⟩ := announced.told
    refine counted.next ?_ (.inr ?_) known
    · have := announced.seq
      omega
    · rw [state, lookup_makestate, seq]

theorem agrees_clear (counted : s.Counted) (Id : Option String) :
    Agrees s (.action env (.clear Id)) (s.m.actClear env Id).1 (s.m.actClear env Id).2 := by
  cases Id with
  | none => exact agrees_self counted trivial
  | some id =>
      cases service : idmap.lookup id with
      | none =>
          have acted : s.m.actClear env (some id) = (s.m, ⟨800, [], []⟩) := by
            rw [actClear, service]
          rw [acted]
          refine agrees_self counted fun inside => ?_
          rw [service] at inside
          cases inside
      | some shortid =>
          have acted : s.m.actClear env (some id) =
              (save env { s.m with creds := VarMap.erase s.m.creds id },
                ⟨UPNP_E_SUCCESS, [], []⟩) := by rw [actClear, service]
          rw [acted]
          have lookup : ∀ other,
              (save env { s.m with creds := VarMap.erase s.m.creds id }).creds.lookup other =
                if other = id then none else s.m.creds.lookup other := fun other => by
            rw [creds_save, VarMap.lookup_erase]
          have saved := state_save env { s.m with creds := VarMap.erase s.m.creds id }
          have known : Known (save env { s.m with creds := VarMap.erase s.m.creds id }) := by
            intro other cred there
            rw [lookup] at there
            split at there
            · cases there
            · exact counted.known other cred there
          have cleared : shown (save env { s.m with creds := VarMap.erase s.m.creds id }) id =
              ("", "") := by
            rw [shown, lookup, if_pos rfl]
          refine ⟨?_, counted.next (Int.le_of_eq saved.1.symm) (.inl saved.2) known⟩
          rw [law_iff_of_silent counted known rfl]
          constructor
          · exact fun same _ => (same id).trans cleared
          · intro spared other
            by_cases same : other = id
            · rw [same, cleared]
              exact spared (by rw [service]; rfl)
            · exact shown_congr (by rw [lookup, if_neg same])

theorem agrees_setEnabled (counted : s.Counted) {Id : Option String} {Enabled : Option Bool}
    (taken : s.m.actSetEnabled Id Enabled = some (m', reply)) :
    Agrees s (.action env (.setEnabled Id Enabled)) m' reply := by
  unfold actSetEnabled at taken
  split at taken
  · rename_i id enabled
    have spec := @setEnabled_spec s.m id enabled
    have state := state_setEnabled s.m id enabled
    have known : Known (s.m.setEnabled id enabled).1 := by
      intro other cred there
      rw [spec] at there
      split at there
      · rename_i same
        obtain ⟨before, old, rfl⟩ := Option.map_eq_some_iff.mp there
        exact counted.known other before (same ▸ old)
      · exact counted.known other cred there
    have same : ∀ other, shown s.m other = shown (s.m.setEnabled id enabled).1 other := by
      intro other
      by_cases here : other = id
      · rw [shown, shown, spec, if_pos here, here]
        cases s.m.creds.lookup id <;> rfl
      · exact shown_congr (by rw [spec, if_neg here])
    split at taken
    · rename_i m₁ set
      rw [set] at known same state
      rw [Option.map_eq_some_iff] at taken
      obtain ⟨m₂, counted_seq, made⟩ := taken
      obtain ⟨rfl, rfl⟩ := Prod.mk.inj made
      have creds := creds_increment counted_seq
      obtain ⟨seq, -⟩ := seq_increment counted_seq
      have known' : Known m₂.onEvent.1 := fun other cred there =>
        known other cred (creds ▸ there)
      refine ⟨⟨fun _ => trivial, fun _ => law_of_shown counted known' fun other => ?_⟩, ?_⟩
      · rw [same]
        exact shown_congr (congrArg (List.lookup other) creds)
      · refine counted.next ?_ (.inr (lookup_makestate m₂)) known'
        have kept : m₁.seq = s.m.seq := state.1
        show s.m.seq ≤ m₂.seq
        omega
    · rename_i m₁ set
      rw [set] at known same state
      rw [Option.some.injEq] at taken
      obtain ⟨rfl, rfl⟩ := Prod.mk.inj taken
      exact ⟨⟨fun _ => trivial, fun _ => law_of_shown counted known same⟩,
        counted.next (Int.le_of_eq state.1.symm) (.inl state.2) known⟩
  · rw [Option.some.injEq] at taken
    obtain ⟨rfl, rfl⟩ := Prod.mk.inj taken
    exact agrees_self counted trivial

theorem agrees_get (counted : s.Counted) (Id : Option String) :
    Agrees s (.action env (.get Id)) (s.m.actGet env Id).1 (s.m.actGet env Id).2 := by
  cases Id with
  | none => exact agrees_self counted trivial
  | some id =>
      have made : (s.m.actGet env (some id)).1 = (s.m.insertCreds env id "" "" "").1 := by
        unfold actGet
        dsimp only
        split <;> rfl
      rw [made]
      by_cases done : (s.m.insertCreds env id "" "" "").2 = 0
      · obtain ⟨inside, cred, lookup, source⟩ := insertCreds_spec (Prod.ext rfl done)
        have state := state_insertCreds env s.m id "" "" ""
        have blank_or_old : cred.supported ∧ (cred.user, cred.encryptedpass) = shown s.m id := by
          rcases source with ⟨absent, supported, -, user, -, encrypted⟩ | ⟨-, old⟩ | ⟨filled, -⟩
          · exact ⟨supported, by rw [shown, absent, user, encrypted]⟩
          · exact ⟨(counted.known id cred old).2, by rw [shown, old]⟩
          · exact absurd rfl filled
        have known : Known (s.m.insertCreds env id "" "" "").1 := by
          intro other found there
          rw [lookup] at there
          split at there
          · rename_i same
            cases there
            exact ⟨same ▸ inside, blank_or_old.1⟩
          · exact counted.known other found there
        refine ⟨⟨fun _ => trivial, fun _ => law_of_shown counted known fun other => ?_⟩,
          counted.next (Int.le_of_eq state.1.symm) (.inl state.2) known⟩
        by_cases same : other = id
        · rw [same, ← blank_or_old.2]
          show _ = shown (s.m.insertCreds env id "" "" "").1 id
          rw [shown, lookup, if_pos rfl]
        · exact shown_congr (by rw [lookup, if_neg same])
      · rw [insertCreds_failed done]
        exact agrees_self counted trivial

/-- The records after a request to a service. -/
theorem known_set {id : String} {cred cred' : ServiceCreds} (counted : s.Counted)
    (there : s.m.creds.lookup id = some cred) (name : cred'.servicename = cred.servicename)
    (creds : m'.creds = VarMap.set s.m.creds id cred') : Known m' := by
  intro other found lookup
  rw [creds, VarMap.lookup_set] at lookup
  split at lookup
  · rename_i same
    cases lookup
    obtain ⟨inside, supported⟩ := counted.known id cred there
    refine ⟨same ▸ inside, ?_⟩
    rw [ServiceCreds.supported, name]
    exact supported
  · exact counted.known other found lookup

theorem agrees_login (counted : s.Counted) {Id : Option String}
    (taken : s.m.actLogin env Id = some (m', reply)) :
    Agrees s (.action env (.login Id)) m' reply := by
  rcases actLogin_spec taken with ⟨rfl, -, -, absent⟩ |
    ⟨id, cred, rfl, there, ⟨seq, state⟩, creds, rfl⟩
  · refine agrees_self counted ?_
    cases Id with
    | none => trivial
    | some id =>
        intro cred there
        rw [absent id rfl] at there
        cases there
  · have done := ServiceCreds.loggedIn_login env cred
    have known : Known m' := by
      refine known_set counted there ?_ creds
      split
      · exact done.servicename
      · exact done.servicename
    have lookup : ∀ other, m'.creds.lookup other = _ := fun other => by
      rw [creds, VarMap.lookup_set]
    refine ⟨?_, counted.next (by omega) (.inl state) known⟩
    rw [law_iff_of_silent counted known rfl]
    have before : shown s.m id = (cred.user, cred.encryptedpass) := by rw [shown, there]
    have after : shown m' id =
        if (cred.login env).2 = "" then ("", "") else (cred.user, cred.encryptedpass) := by
      rw [shown, lookup, if_pos rfl]
      dsimp only
      split
      · rfl
      · rw [done.user, done.encryptedpass]
    have supported := (counted.known id cred there).2
    constructor
    · intro same found there' refused
      rw [there, Option.some.injEq] at there'
      subst there'
      rw [same id, after, if_pos ((login_eq_empty_iff supported).mpr refused)]
    · intro spared other
      by_cases same : other = id
      · rw [same, after]
        split
        · rename_i refused
          exact spared cred there ((login_eq_empty_iff supported).mp refused)
        · exact before
      · exact shown_congr (by rw [lookup, if_neg same])

theorem agrees_reLogin (counted : s.Counted) {Id CurrentToken : Option String}
    (taken : s.m.actReLogin env Id CurrentToken = some (m', reply)) :
    Agrees s (.action env (.reLogin Id CurrentToken)) m' reply := by
  rcases actReLogin_spec taken with ⟨rfl, -⟩ | ⟨id, current, cred, rfl, rfl, there,
    ⟨grown, state⟩, creds, -⟩
  · exact agrees_self counted trivial
  · have done := ServiceCreds.loggedIn_login env cred.logout
    have known := known_set counted there done.servicename creds
    refine ⟨⟨fun _ => trivial, fun _ => law_of_shown counted known fun other => ?_⟩,
      counted.next grown (.inl state) known⟩
    by_cases same : other = id
    · have now : m'.creds.lookup id = some (cred.logout.login env).1 := by
        rw [creds, VarMap.lookup_set, if_pos rfl]
      rw [same, shown, shown, there, now]
      dsimp only
      rw [done.user, done.encryptedpass]
      rfl
    · exact shown_congr (by rw [creds, VarMap.lookup_set, if_neg same])

theorem agrees_step (counted : s.Counted) (taken : s.step event = some (t, reply)) :
    (SequenceLaw s event t reply ↔ Spares s event t reply) ∧ t.Counted := by
  unfold step at taken
  rw [Option.map_eq_some_iff] at taken
  obtain ⟨⟨m', reply'⟩, executed, made⟩ := taken
  obtain ⟨rfl, rfl⟩ := Prod.mk.inj made
  dsimp only
  have silent : ∀ m' : OHCredentials, m'.creds = s.m.creds → Known m' ∧
      ∀ id, shown s.m id = shown m' id := by
    intro m' same
    exact ⟨fun id cred there => counted.known id cred (same ▸ there),
      fun id => shown_congr (congrArg (List.lookup id) same)⟩
  cases event with
  | subscribe =>
      cases executed
      obtain ⟨known, same⟩ := silent s.m.subscribe rfl
      exact ⟨⟨fun _ => trivial, fun _ => law_of_shown counted known same⟩,
        counted.next (Int.le_refl _) (.inr (lookup_makestate s.m)) known⟩
  | onEvent =>
      cases executed
      obtain ⟨known, same⟩ := silent s.m.onEvent.1 rfl
      exact ⟨⟨fun _ => trivial, fun _ => law_of_shown counted known same⟩,
        counted.next (Int.le_refl _) (.inr (lookup_makestate s.m)) known⟩
  | action env action =>
      cases action with
      | set Id UserName Password => exact agrees_set counted executed
      | clear Id =>
          obtain ⟨rfl, rfl⟩ := Prod.ext_iff.mp (Option.some.inj executed)
          exact agrees_clear counted Id
      | setEnabled Id Enabled => exact agrees_setEnabled counted executed
      | get Id =>
          obtain ⟨rfl, rfl⟩ := Prod.ext_iff.mp (Option.some.inj executed)
          exact agrees_get counted Id
      | login Id => exact agrees_login counted executed
      | reLogin Id CurrentToken => exact agrees_reLogin counted executed
      | getIds =>
          cases executed
          exact agrees_self counted trivial
      | getPublicKey =>
          cases executed
          exact agrees_self counted trivial
      | getSequenceNumber =>
          cases executed
          obtain ⟨known, same⟩ := silent s.m.onEvent.1 rfl
          exact ⟨⟨fun _ => trivial, fun _ => law_of_shown counted known same⟩,
            counted.next (Int.le_refl _) (.inr (lookup_makestate s.m)) known⟩

theorem counted_start (env : CredsEnv) (pubkey : String)
    (screds : List (String × String × String × String)) : (start env pubkey screds).Counted := by
  have seq : (start env pubkey screds).m.seq = 1 ∧ (start env pubkey screds).m.m_state = [] := by
    unfold start tryLoad
    dsimp only
    split <;> exact ⟨rfl, rfl⟩
  refine ⟨?_, ?_, ?_⟩
  · intro n member
    exact seq.1.symm ▸ Int.le_of_eq (List.mem_singleton.mp member)
  · intro told there
    rw [seq.2] at there
    cases there
  · intro id cred there
    have member : (id, cred) ∈ (start env pubkey screds).m.creds := by
      obtain ⟨before, behind, same, -⟩ := List.lookup_eq_some_iff.mp there
      rw [same]
      simp
    obtain ⟨inside, supported, -⟩ := known_tryLoad env rfl member
    exact ⟨inside, supported⟩

end Steps

/-- In every run, the law holds at each step just when each step spares the credentials which
are reported. -/
theorem sequenceLaw_iff (env : CredsEnv) (pubkey : String)
    (screds : List (String × String × String × String)) (events : List CredsEvent) :
    Machine.Along SequenceLaw step (start env pubkey screds) events ↔
      Machine.Along Spares step (start env pubkey screds) events := by
  refine Machine.along_iff_of_invariant ?_ _ events
    (counted_start env pubkey screds)
  intro s event t reply counted taken
  obtain ⟨same, counted'⟩ := agrees_step counted taken
  exact ⟨same, fun _ => counted'⟩

/-- Credentials are set, and cleared. -/
theorem not_sequenceLaw_clear :
    ¬ ∀ (env : CredsEnv) (pubkey : String)
      (screds : List (String × String × String × String)) (events : List CredsEvent),
      Machine.Along SequenceLaw step (start env pubkey screds) events := by
  intro law
  let env : CredsEnv := ⟨some, fun _ => true, fun _ _ _ => none, "", true, true⟩
  have along := law env "key" [] [.action env (.set (some "qobuz.com") (some "ann") (some "a")),
    .action env (.clear (some "qobuz.com"))]
  have last := ((Machine.along_cons_of_step rfl).mp along).2
  have told := ((Machine.along_cons_of_step rfl).mp last).1
  obtain ⟨-, event, member, -⟩ := told ⟨env, "qobuz.com", by decide⟩
  cases member

end SequenceRun

end Upmpdcli
