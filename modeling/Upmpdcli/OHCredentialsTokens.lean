import Upmpdcli.Lib.Machine
import Upmpdcli.OHCredentials

set_option autoImplicit false

/- The user names and passwords which the tokens of the Credentials service are for. -/
namespace Upmpdcli

namespace ServiceCreds

/-- What a failed login leaves, and a `Get` makes. -/
def blank (creds : ServiceCreds) : Prop :=
  creds.user = "" ∧ creds.password = "" ∧ creds.encryptedpass = ""

/-- The token which the service gives for the user name and the password, if it is asked. -/
def authenticated (env : CredsEnv) (creds : ServiceCreds) : Option String :=
  if creds.servicename ∉ ["qobuz", "tidal"] ∨ creds.token ≠ "" then none
  else (creds.authenticate env).bind fun res => res "token"

/-- The answer of the service has the value which comes with a token. -/
def complete (env : CredsEnv) (creds : ServiceCreds) : Prop :=
  ∀ res, creds.authenticate env = some res → (res creds.second).isSome

instance (creds : ServiceCreds) : Decidable creds.blank := inferInstanceAs (Decidable (_ ∧ _))

variable {env : CredsEnv} {creds : ServiceCreds}

theorem token_of_servicedata {servicedata : List (String × String)} (creds : ServiceCreds) :
    ({ creds with servicedata := servicedata } : ServiceCreds).token =
      (servicedata.lookup "token").getD "" := rfl

theorem second_ne_token (creds : ServiceCreds) : creds.second ≠ "token" := by
  unfold second
  split <;> decide

/-- What a login does to a record: the user and the password stay, and a token is one which
was there or which the service has just given. -/
structure LoggedIn (env : CredsEnv) (creds after : ServiceCreds) (token : String) : Prop where
  user : after.user = creds.user
  password : after.password = creds.password
  encryptedpass : after.encryptedpass = creds.encryptedpass
  source : after.token = "" ∨ after.token = creds.token ∨
    creds.authenticated env = some after.token
  returned : token ≠ "" → token = after.token
  kept : token = "" → creds.supported → creds.complete env → after.token = ""
  servicename : after.servicename = creds.servicename

/-- The two values of a login. -/
theorem store_pair (creds : ServiceCreds) (res : SlaveResult) :
    creds.store res ["token", creds.second] =
      match res "token" with
      | none => (creds, false)
      | some token =>
          let creds' : ServiceCreds :=
            { creds with servicedata := VarMap.set creds.servicedata "token" token }
          match res creds.second with
          | none => (creds', false)
          | some value =>
              ({ creds' with
                servicedata := VarMap.set creds'.servicedata creds.second value }, true) := by
  unfold store
  cases res "token" with
  | none => rfl
  | some token =>
      unfold store
      cases res creds.second with
      | none => rfl
      | some value => rfl

theorem loggedIn_login (env : CredsEnv) (creds : ServiceCreds) :
    LoggedIn env creds (creds.login env).1 (creds.login env).2 := by
  unfold login
  by_cases unknown : creds.servicename ∉ ["qobuz", "tidal"]
  · rw [if_pos unknown]
    exact ⟨rfl, rfl, rfl, .inr (.inl rfl), fun some_token => absurd rfl some_token,
      fun _ known => absurd known unknown, rfl⟩
  · rw [if_neg unknown]
    by_cases held : creds.token = ""
    · rw [if_neg (not_not_intro held)]
      have asked : creds.authenticated env =
          (creds.authenticate env).bind fun res => res "token" := by
        rw [authenticated, if_neg]
        rintro (other | other)
        · exact unknown other
        · exact other held
      cases answer : creds.authenticate env with
      | none =>
          exact ⟨rfl, rfl, rfl, .inl held, fun some_token => absurd rfl some_token,
            fun _ _ _ => held, rfl⟩
      | some res =>
          rw [answer, Option.bind_some] at asked
          dsimp only
          rw [store_pair]
          cases given : res "token" with
          | none =>
              exact ⟨rfl, rfl, rfl, .inl held, fun some_token => absurd rfl some_token,
                fun _ _ _ => held, rfl⟩
          | some token =>
              have stored : ({ creds with
                  servicedata := VarMap.set creds.servicedata "token" token } :
                    ServiceCreds).token = token := by
                rw [token_of_servicedata, VarMap.lookup_set, if_pos rfl]
                rfl
              cases more : res creds.second with
              | none =>
                  refine ⟨rfl, rfl, rfl, .inr (.inr ?_), fun some_token => absurd rfl some_token,
                    fun _ _ whole => ?_, rfl⟩
                  · rw [asked, given]
                    exact congrArg some stored.symm
                  · have present := whole res answer
                    rw [more] at present
                    cases present
              | some value =>
                  have stored' : ({ creds with
                      servicedata := VarMap.set (VarMap.set creds.servicedata "token" token)
                        creds.second value } : ServiceCreds).token = token := by
                    rw [token_of_servicedata, VarMap.lookup_set,
                      if_neg (Ne.symm creds.second_ne_token), VarMap.lookup_set, if_pos rfl]
                    rfl
                  refine ⟨rfl, rfl, rfl, .inr (.inr ?_), fun _ => rfl, fun empty _ _ => empty, rfl⟩
                  rw [asked, given]
                  exact congrArg some stored'.symm
    · rw [if_pos held]
      exact ⟨rfl, rfl, rfl, .inr (.inl rfl), fun _ => rfl, fun empty => absurd empty held, rfl⟩

variable (env) in
theorem login_of_token (supported : creds.supported) (held : creds.token ≠ "") :
    creds.login env = (creds, creds.token) := by
  unfold login
  rw [if_neg, if_pos held]
  exact not_not_intro supported

end ServiceCreds

/-- A run of the service: what the last `Set` of each service gave, unless it was cleared or a
login has failed since, and the logins which the services have answered with a token. -/
structure CredsRun where
  m : OHCredentials
  lastSet : String → Option (String × String)
  log : List (String × String × String × String) := []

namespace CredsRun

open OHCredentials

/-- The start. The saved credentials were set by a former process. -/
def start (env : CredsEnv) (pubkey : String)
    (screds : List (String × String × String × String)) : CredsRun :=
  let m := tryLoad env { pubkey, screds }
  { m
    lastSet := fun id =>
      (m.creds.lookup id).bind fun cred =>
        if cred.blank then none else some (cred.user, cred.password) }

def setBy (s : CredsRun) (env : CredsEnv) (action : Action) (reply : CredsReply) :
    String → Option (String × String) :=
  match action with
  | .set (some id) (some user) (some password) =>
      if reply.ret = UPNP_E_SUCCESS then
        Function.update s.lastSet id ((env.decrypt password).map fun plain => (user, plain))
      else s.lastSet
  | .clear (some id) =>
      if reply.ret = UPNP_E_SUCCESS then Function.update s.lastSet id none else s.lastSet
  | .login (some id) => if reply.ret = 801 then Function.update s.lastSet id none else s.lastSet
  | _ => s.lastSet

/-- The record with which an action asks a service. -/
def asking (s : CredsRun) : Action → Option (String × ServiceCreds)
  | .login (some id) => (s.m.creds.lookup id).map fun cred => (id, cred)
  | .reLogin (some id) (some _) => (s.m.creds.lookup id).map fun cred => (id, cred.logout)
  | _ => none

def logBy (s : CredsRun) (env : CredsEnv) (action : Action) :
    List (String × String × String × String) :=
  match s.asking action with
  | none => s.log
  | some (id, cred) =>
      match cred.authenticated env with
      | none => s.log
      | some token => (id, cred.user, cred.password, token) :: s.log

def step (s : CredsRun) (a : CredsEnv × Action) : Option (CredsRun × CredsReply) :=
  (s.m.execute a.1 a.2).map fun done =>
    ({ m := done.1, lastSet := s.setBy a.1 a.2 done.2, log := s.logBy a.1 a.2 }, done.2)

/-- A token which an action returns was given for what was last set. -/
def TokenLaw (s : CredsRun) (a : CredsEnv × Action) (t : CredsRun) (reply : CredsReply) : Prop :=
  ∀ id cred, s.asking a.2 = some (id, cred) → reply.ret = UPNP_E_SUCCESS →
    ∀ arg ∈ reply.args, ∃ user password, s.lastSet id = some (user, password) ∧
      (id, user, password, arg.2) ∈ t.log

/-- A `Set` comes when there is no token, or is the one which is there again. The services are
asked for a token with credentials only, and a `Login` is answered completely. -/
def Careful (s : CredsRun) (a : CredsEnv × Action) (_ : CredsRun) (_ : CredsReply) : Prop :=
  match a.2 with
  | .set (some id) (some user) (some password) =>
      ∀ cred plain, s.m.creds.lookup id = some cred → a.1.decrypt password = some plain →
        (cred.token = "" ∧ user ≠ "") ∨ (user = cred.user ∧ plain = cred.password)
  | .login (some id) =>
      ∀ cred token, s.m.creds.lookup id = some cred → cred.authenticated a.1 = some token →
        token ≠ "" → ¬ cred.blank ∧ cred.complete a.1
  | .reLogin (some id) (some _) =>
      ∀ cred token, s.m.creds.lookup id = some cred →
        cred.logout.authenticated a.1 = some token → token ≠ "" → ¬ cred.blank
  | _ => True

/-- What a record has: its credentials are those last set, unless it is blank, and its token was
given for them. -/
structure Backed (lastSet : Option (String × String))
    (log : List (String × String × String × String)) (id : String) (cred : ServiceCreds) :
    Prop where
  supported : cred.supported
  set : ¬ cred.blank → lastSet = some (cred.user, cred.password)
  token : cred.token ≠ "" →
    ¬ cred.blank ∧ (id, cred.user, cred.password, cred.token) ∈ log

def Sound (s : CredsRun) : Prop :=
  ∀ id cred, s.m.creds.lookup id = some cred → Backed (s.lastSet id) s.log id cred

section Steps

variable {env : CredsEnv} {s t : CredsRun} {id : String} {cred : ServiceCreds}
  {lastSet : Option (String × String)} {log : List (String × String × String × String)}

theorem Backed.enabled (backed : Backed lastSet log id cred) (enabled : Bool) :
    Backed lastSet log id { cred with enabled } :=
  ⟨backed.supported, backed.set, backed.token⟩

theorem Backed.log_cons (backed : Backed lastSet log id cred)
    (entry : String × String × String × String) : Backed lastSet (entry :: log) id cred :=
  ⟨backed.supported, backed.set, fun held =>
    ⟨(backed.token held).1, List.mem_cons_of_mem _ (backed.token held).2⟩⟩

theorem Sound.set (sound : s.Sound) {Id UserName Password : Option String} {m' : OHCredentials}
    {reply : CredsReply} (careful : Careful s (env, .set Id UserName Password) t reply)
    (taken : s.m.actSet env Id UserName Password = some (m', reply)) :
    Sound ⟨m', s.setBy env (.set Id UserName Password) reply, s.log⟩ := by
  rcases actSet_spec taken with ⟨rfl, failed⟩ | ⟨id, user, password, plain, m₁, rfl, rfl, rfl,
    decrypted, inserted, done, lookup⟩
  · have kept : s.setBy env (.set Id UserName Password) reply = s.lastSet := by
      cases Id <;> cases UserName <;> cases Password <;> first | rfl | exact if_neg failed
    rw [kept]
    exact sound
  · obtain ⟨-, cred, before, source⟩ := insertCreds_spec inserted
    have now : s.setBy env (.set (some id) (some user) (some password)) reply =
        Function.update s.lastSet id (some (user, plain)) := by
      rw [setBy, if_pos done, decrypted]
      rfl
    rw [now]
    intro other found there
    dsimp only at there ⊢
    rw [lookup] at there
    split at there
    · rename_i same
      subst same
      rw [before, if_pos rfl, Option.map_some, Option.some.injEq] at there
      subst there
      rw [Function.update_self]
      refine Backed.enabled ?_ true
      rcases source with ⟨-, supported, none_held, rfl, rfl, rfl⟩ | ⟨rfl, old⟩ |
        ⟨filled, old, there, rfl⟩
      · exact ⟨supported, fun _ => rfl, fun held => absurd none_held held⟩
      · rcases careful cred plain old decrypted with ⟨-, filled⟩ | ⟨same_user, same_pass⟩
        · exact absurd rfl filled
        · rw [same_user, same_pass]
          have backed := sound other cred old
          exact ⟨backed.supported, fun _ => rfl, backed.token⟩
      · have backed := sound other old there
        refine ⟨backed.supported, fun _ => rfl, fun held => ?_⟩
        refine ⟨fun blank => filled blank.1, ?_⟩
        rcases careful old plain there decrypted with ⟨none_held, -⟩ | ⟨same_user, same_pass⟩
        · exact absurd none_held held
        · dsimp only
          rw [same_user, same_pass]
          exact (backed.token held).2
    · rename_i differ
      rw [Function.update_of_ne differ]
      rw [before, if_neg differ] at there
      exact sound other found there

theorem Sound.clear (sound : s.Sound) (Id : Option String) :
    Sound ⟨(s.m.actClear env Id).1, s.setBy env (.clear Id) (s.m.actClear env Id).2, s.log⟩ := by
  cases Id with
  | none => exact sound
  | some id =>
      cases known : idmap.lookup id with
      | none =>
          have acted : s.m.actClear env (some id) = (s.m, ⟨800, [], []⟩) := by
            rw [actClear, known]
          rw [acted]
          exact sound
      | some shortid =>
          have acted : s.m.actClear env (some id) =
              (save env { s.m with creds := VarMap.erase s.m.creds id },
                ⟨UPNP_E_SUCCESS, [], []⟩) := by rw [actClear, known]
          have now : s.setBy env (.clear (some id)) ⟨UPNP_E_SUCCESS, [], []⟩ =
              Function.update s.lastSet id none := rfl
          rw [acted, now]
          intro other cred there
          dsimp only at there ⊢
          rw [creds_save, VarMap.lookup_erase] at there
          split at there
          · cases there
          · rename_i differ
            rw [Function.update_of_ne differ]
            exact sound other cred there

theorem Sound.setEnabled (sound : s.Sound) {Id : Option String} {Enabled : Option Bool}
    {m' : OHCredentials} {reply : CredsReply}
    (taken : s.m.actSetEnabled Id Enabled = some (m', reply)) :
    Sound ⟨m', s.lastSet, s.log⟩ := by
  unfold actSetEnabled at taken
  split at taken
  · rename_i id enabled
    have spec := @setEnabled_spec s.m id enabled
    split at taken
    · rename_i m₁ set
      rw [Option.map_eq_some_iff] at taken
      obtain ⟨m₂, counted, made⟩ := taken
      obtain ⟨rfl, -⟩ := Prod.mk.inj made
      intro other cred there
      dsimp only at there ⊢
      rw [creds_increment counted] at there
      rw [set] at spec
      rw [spec] at there
      split at there
      · rename_i same
        obtain ⟨before, old, rfl⟩ := Option.map_eq_some_iff.mp there
        exact (sound other before (same ▸ old)).enabled enabled
      · exact sound other cred there
    · rename_i m₁ set
      rw [Option.some.injEq] at taken
      obtain ⟨rfl, -⟩ := Prod.mk.inj taken
      rw [set] at spec
      intro other cred there
      dsimp only at there ⊢
      rw [spec] at there
      split at there
      · rename_i same
        obtain ⟨before, old, rfl⟩ := Option.map_eq_some_iff.mp there
        exact (sound other before (same ▸ old)).enabled enabled
      · exact sound other cred there
  · rw [Option.some.injEq] at taken
    obtain ⟨rfl, -⟩ := Prod.mk.inj taken
    exact sound

theorem Sound.get (sound : s.Sound) (Id : Option String) :
    Sound ⟨(s.m.actGet env Id).1, s.lastSet, s.log⟩ := by
  cases Id with
  | none => exact sound
  | some id =>
      have made : (s.m.actGet env (some id)).1 = (s.m.insertCreds env id "" "" "").1 := by
        unfold actGet
        dsimp only
        split <;> rfl
      rw [made]
      by_cases done : (s.m.insertCreds env id "" "" "").2 = 0
      · obtain ⟨-, cred, lookup, source⟩ := insertCreds_spec (Prod.ext rfl done)
        intro other found there
        dsimp only at there ⊢
        rw [lookup] at there
        split at there
        · rename_i same
          cases there
          rcases source with ⟨-, supported, none_held, user, password, encrypted⟩ | ⟨-, old⟩ |
            ⟨filled, -⟩
          · exact ⟨supported, fun some_creds => absurd ⟨user, password, encrypted⟩ some_creds,
              fun held => absurd none_held held⟩
          · exact sound other cred (same ▸ old)
          · exact absurd rfl filled
        · exact sound other found there
      · rw [insertCreds_failed done]
        exact sound

/-- What a login leaves of a record whose token is not in doubt. -/
theorem Backed.login (backed : Backed lastSet log id cred)
    (asked : ∀ token, cred.authenticated env = some token → token ≠ "" → ¬ cred.blank) :
    Backed lastSet
      (match cred.authenticated env with
        | none => log
        | some token => (id, cred.user, cred.password, token) :: log) id (cred.login env).1 := by
  have done := ServiceCreds.loggedIn_login env cred
  have blank : (cred.login env).1.blank ↔ cred.blank := by
    unfold ServiceCreds.blank
    rw [done.user, done.password, done.encryptedpass]
  refine ⟨?_, ?_, ?_⟩
  · rw [ServiceCreds.supported, done.servicename]
    exact backed.supported
  · rw [blank, done.user, done.password]
    exact backed.set
  · intro held
    rw [blank, done.user, done.password]
    rcases done.source with none_held | old | new
    · exact absurd none_held held
    · rw [old] at held ⊢
      obtain ⟨not_blank, logged⟩ := backed.token held
      refine ⟨not_blank, ?_⟩
      split
      · exact logged
      · exact List.mem_cons_of_mem _ logged
    · rw [new]
      exact ⟨asked _ new held, List.mem_cons_self⟩

theorem Backed.logout (backed : Backed lastSet log id cred) :
    Backed lastSet log id cred.logout :=
  ⟨backed.supported, backed.set, fun held => absurd rfl held⟩

/-- The records after a request to a service. -/
theorem Sound.with_record (sound : s.Sound) (id : String)
    {log' : List (String × String × String × String)} (grown : ∀ entry ∈ s.log, entry ∈ log')
    {now : String → Option (String × String)}
    (kept : ∀ other, other ≠ id → now other = s.lastSet other)
    {m' : OHCredentials} (creds : m'.creds = VarMap.set s.m.creds id cred)
    (backed : Backed (now id) log' id cred) : Sound ⟨m', now, log'⟩ := by
  intro other found there
  dsimp only at there ⊢
  rw [creds, VarMap.lookup_set] at there
  split at there
  · rename_i same
    cases there
    exact same ▸ backed
  · rename_i differ
    have old := sound other found there
    rw [kept other differ]
    exact ⟨old.supported, old.set, fun held =>
      ⟨(old.token held).1, grown _ (old.token held).2⟩⟩

theorem asking_login (there : s.m.creds.lookup id = some cred) :
    s.asking (.login (some id)) = some (id, cred) := by
  show (s.m.creds.lookup id).map _ = _
  rw [there]
  rfl

theorem asking_reLogin (there : s.m.creds.lookup id = some cred) (current : String) :
    s.asking (.reLogin (some id) (some current)) = some (id, cred.logout) := by
  show (s.m.creds.lookup id).map _ = _
  rw [there]
  rfl

theorem log_subset_logBy (s : CredsRun) (env : CredsEnv) (action : Action) :
    ∀ entry ∈ s.log, entry ∈ s.logBy env action := by
  intro entry member
  unfold logBy
  split
  · exact member
  · split
    · exact member
    · exact List.mem_cons_of_mem _ member

theorem Sound.login (sound : s.Sound) {Id : Option String} {m' : OHCredentials}
    {reply : CredsReply} (careful : Careful s (env, .login Id) t reply)
    (taken : s.m.actLogin env Id = some (m', reply)) :
    Sound ⟨m', s.setBy env (.login Id) reply, s.logBy env (.login Id)⟩ ∧
      TokenLaw s (env, .login Id)
        ⟨m', s.setBy env (.login Id) reply, s.logBy env (.login Id)⟩ reply := by
  rcases actLogin_spec taken with ⟨rfl, failed, other, -⟩ | ⟨id, cred, rfl, there, -, creds, rfl⟩
  · have kept : s.setBy env (.login Id) reply = s.lastSet := by
      cases Id with
      | none => rfl
      | some id => exact if_neg other
    rw [kept]
    refine ⟨?_, fun _ _ _ done => absurd done failed⟩
    intro id cred there
    have old := sound id cred there
    exact ⟨old.supported, old.set, fun held =>
      ⟨(old.token held).1, log_subset_logBy s env _ _ (old.token held).2⟩⟩
  · have backed := sound id cred there
    have asked := careful cred
    have log_eq : s.logBy env (.login (some id)) =
        match cred.authenticated env with
        | none => s.log
        | some token => (id, cred.user, cred.password, token) :: s.log := by
      unfold logBy
      rw [asking_login there]
    have after := backed.login fun token given some_token =>
      (asked token there given some_token).1
    rw [← log_eq] at after
    have done := ServiceCreds.loggedIn_login env cred
    by_cases refused : (cred.login env).2 = ""
    · have now : s.setBy env (.login (some id)) ⟨801, [("Token", (cred.login env).2)], []⟩ =
          Function.update s.lastSet id none := rfl
      rw [if_pos refused] at creds
      rw [if_pos refused, now]
      constructor
      · refine sound.with_record id (log_subset_logBy s env _)
          (fun other differ => Function.update_of_ne differ none s.lastSet) creds ?_
        refine ⟨after.supported, fun some_creds => absurd ⟨rfl, rfl, rfl⟩ some_creds, ?_⟩
        intro held
        have no_token : (cred.login env).1.token = "" := by
          by_cases complete : cred.complete env
          · exact done.kept refused backed.supported complete
          · rcases done.source with none_held | old | new
            · exact none_held
            · by_contra some_token
              have returned := ServiceCreds.login_of_token env backed.supported
                (old ▸ some_token)
              rw [returned] at refused
              exact some_token (old.trans refused)
            · by_contra some_token
              exact complete (asked _ there new some_token).2
        exact absurd no_token held
      · intro id' cred' _ success
        have differ : (801 : Int) ≠ UPNP_E_SUCCESS := by decide
        exact absurd success differ
    · have now : s.setBy env (.login (some id))
          ⟨UPNP_E_SUCCESS, [("Token", (cred.login env).2)], []⟩ = s.lastSet := rfl
      rw [if_neg refused] at creds
      rw [if_neg refused, now]
      constructor
      · exact sound.with_record id (log_subset_logBy s env _) (fun _ _ => rfl) creds after
      · intro id' cred' asks _ arg member
        rw [asking_login there] at asks
        cases asks
        have token_eq := done.returned refused
        have held : (cred.login env).1.token ≠ "" := token_eq ▸ refused
        rw [List.mem_singleton.mp member]
        refine ⟨(cred.login env).1.user, (cred.login env).1.password,
          after.set (after.token held).1, ?_⟩
        rw [token_eq]
        exact (after.token held).2

theorem Sound.reLogin (sound : s.Sound) {Id CurrentToken : Option String} {m' : OHCredentials}
    {reply : CredsReply} (careful : Careful s (env, .reLogin Id CurrentToken) t reply)
    (taken : s.m.actReLogin env Id CurrentToken = some (m', reply)) :
    Sound ⟨m', s.lastSet, s.logBy env (.reLogin Id CurrentToken)⟩ ∧
      TokenLaw s (env, .reLogin Id CurrentToken)
        ⟨m', s.lastSet, s.logBy env (.reLogin Id CurrentToken)⟩ reply := by
  rcases actReLogin_spec taken with ⟨rfl, failed⟩ |
    ⟨id, current, cred, rfl, rfl, there, -, creds, outcome⟩
  · refine ⟨?_, fun _ _ _ done => absurd done failed⟩
    intro id cred there
    have old := sound id cred there
    exact ⟨old.supported, old.set, fun held =>
      ⟨(old.token held).1, log_subset_logBy s env _ _ (old.token held).2⟩⟩
  · have backed := (sound id cred there).logout
    have log_eq : s.logBy env (.reLogin (some id) (some current)) =
        match cred.logout.authenticated env with
        | none => s.log
        | some token => (id, cred.logout.user, cred.logout.password, token) :: s.log := by
      unfold logBy
      rw [asking_reLogin there]
    have after := backed.login fun token given some_token =>
      careful cred token there given some_token
    rw [← log_eq] at after
    have done := ServiceCreds.loggedIn_login env cred.logout
    refine ⟨sound.with_record id (log_subset_logBy s env _) (fun _ _ => rfl) creds after, ?_⟩
    intro id' cred' asks success arg member
    rcases outcome with ⟨-, rfl⟩ | ⟨given, rfl⟩
    · exact absurd success (by decide)
    · rw [asking_reLogin there] at asks
      cases asks
      have token_eq := done.returned given
      have held : (cred.logout.login env).1.token ≠ "" := token_eq ▸ given
      rw [List.mem_singleton.mp member]
      refine ⟨(cred.logout.login env).1.user, (cred.logout.login env).1.password,
        after.set (after.token held).1, ?_⟩
      rw [token_eq]
      exact (after.token held).2

/-- One step of a careful run. -/
theorem Sound.step (sound : s.Sound) {a : CredsEnv × Action} {reply : CredsReply}
    (careful : Careful s a t reply) (taken : s.step a = some (t, reply)) :
    t.Sound ∧ TokenLaw s a t reply := by
  obtain ⟨env, action⟩ := a
  rw [CredsRun.step, Option.map_eq_some_iff] at taken
  obtain ⟨⟨m', reply'⟩, executed, made⟩ := taken
  obtain ⟨rfl, rfl⟩ := Prod.mk.inj made
  dsimp only at executed ⊢
  cases action with
  | set Id UserName Password => exact ⟨sound.set careful executed, nofun⟩
  | clear Id =>
      obtain ⟨rfl, rfl⟩ := Prod.ext_iff.mp (Option.some.inj executed)
      exact ⟨sound.clear Id, nofun⟩
  | setEnabled Id Enabled => exact ⟨sound.setEnabled executed, nofun⟩
  | get Id =>
      obtain ⟨rfl, rfl⟩ := Prod.ext_iff.mp (Option.some.inj executed)
      exact ⟨sound.get Id, nofun⟩
  | login Id => exact sound.login careful executed
  | reLogin Id CurrentToken => exact sound.reLogin careful executed
  | getIds =>
      cases executed
      exact ⟨sound, nofun⟩
  | getPublicKey =>
      cases executed
      exact ⟨sound, nofun⟩
  | getSequenceNumber =>
      cases executed
      exact ⟨sound, nofun⟩

theorem sound_start (env : CredsEnv) (pubkey : String)
    (screds : List (String × String × String × String)) : (start env pubkey screds).Sound := by
  intro id cred there
  have set : ¬ cred.blank →
      (start env pubkey screds).lastSet id = some (cred.user, cred.password) := by
    intro some_creds
    show ((start env pubkey screds).m.creds.lookup id).bind _ = _
    rw [there, Option.bind_some, if_neg some_creds]
  have member : (id, cred) ∈ (start env pubkey screds).m.creds := by
    obtain ⟨before, behind, same, -⟩ := List.lookup_eq_some_iff.mp there
    rw [same]
    simp
  obtain ⟨-, supported, no_token⟩ := known_tryLoad env rfl member
  exact ⟨supported, set, fun held => absurd no_token held⟩

end Steps

/-- Every run of which each step is careful: the tokens are those for the user name and the
password which were last set. -/
theorem tokens_of_careful (env : CredsEnv) (pubkey : String)
    (screds : List (String × String × String × String)) (actions : List (CredsEnv × Action))
    (careful : Machine.Along Careful step (start env pubkey screds) actions) :
    Machine.Along TokenLaw step (start env pubkey screds) actions := by
  refine Machine.along_of_invariant ?_ _ actions (sound_start env pubkey screds)
    careful
  intro s a t reply sound met taken
  exact sound.step met taken

/-- A service which gives each user a token of the name of the user. -/
def namedEnv : CredsEnv where
  decrypt password := some password
  started _ := true
  callproc _ proc args := some fun name =>
    if proc = "login" ∧ name = "token" then (args.lookup "user").map fun user => "token of " ++ user
    else some "0"

/-- Somebody logs in, and again after another one has come. -/
def twoUsers : List (CredsEnv × Action) :=
  [.set (some "qobuz.com") (some "ann") (some "a"), .login (some "qobuz.com"),
    .clear (some "qobuz.com"), .set (some "qobuz.com") (some "ben") (some "b"),
    .login (some "qobuz.com")].map fun action => (namedEnv, action)

theorem tokens_of_careful_twoUsers :
    Machine.Along TokenLaw step (start namedEnv "key" []) twoUsers := by
  refine tokens_of_careful namedEnv "key" [] twoUsers ?_
  refine (Machine.along_cons_of_step rfl).mpr ⟨nofun, ?_⟩
  refine (Machine.along_cons_of_step rfl).mpr ⟨?_, ?_⟩
  · rintro cred token ⟨⟩ - -
    exact ⟨fun blank => absurd blank.1 (by decide), fun res answer => by cases answer; rfl⟩
  refine (Machine.along_cons_of_step rfl).mpr ⟨trivial, ?_⟩
  refine (Machine.along_cons_of_step rfl).mpr ⟨nofun, ?_⟩
  refine (Machine.along_cons_of_step rfl).mpr ⟨?_, trivial⟩
  rintro cred token ⟨⟩ - -
  exact ⟨fun blank => absurd blank.1 (by decide), fun res answer => by cases answer; rfl⟩

/-- The second user sets other credentials while the token of the first one is there. -/
def setWhileLoggedIn : List (CredsEnv × Action) :=
  [.set (some "qobuz.com") (some "ann") (some "a"), .login (some "qobuz.com"),
    .set (some "qobuz.com") (some "ben") (some "b"),
    .login (some "qobuz.com")].map fun action => (namedEnv, action)

theorem not_tokens_setWhileLoggedIn :
    ¬ ∀ (env : CredsEnv) (pubkey : String)
      (screds : List (String × String × String × String)) (actions : List (CredsEnv × Action)),
      Machine.Along TokenLaw step (start env pubkey screds) actions := by
  intro law
  have along := law namedEnv "key" [] setWhileLoggedIn
  have last := ((Machine.along_cons_of_step rfl).mp ((Machine.along_cons_of_step rfl).mp
    ((Machine.along_cons_of_step rfl).mp along).2).2).2
  have told := ((Machine.along_cons_of_step rfl).mp last).1
  obtain ⟨user, password, set, logged⟩ :=
    told "qobuz.com" _ rfl rfl ("Token", "token of ann") List.mem_cons_self
  cases set
  exact absurd logged (by decide)

end CredsRun

end Upmpdcli
