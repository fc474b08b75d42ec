import Upmpdcli.Cdplugins.PlgWithSlave
import Upmpdcli.OHService

set_option autoImplicit false

/- The Credentials service: the user names and passwords of the streaming services, and the
tokens which these give for them. -/
namespace Upmpdcli

/-- What an action finds outside of the service: the decryption, the auxiliary process of each
streaming service, the configuration, and whether the credentials can be saved. -/
structure CredsEnv where
  decrypt : String → Option String
  started : String → Bool
  callproc : String → String → List (String × String) → Option SlaveResult
  tidalapitoken : String := ""
  doingsavetofile : Bool := true
  saved : Bool := true

def idstring : String := "tidalhifi.com qobuz.com"

def idmap : List (String × String) := [("tidalhifi.com", "tidal"), ("qobuz.com", "qobuz")]

structure ServiceCreds where
  servicename : String
  user : String
  password : String
  encryptedpass : String
  enabled : Bool := true
  servicedata : List (String × String) := []
  status : String := ""
  data : String := ""

namespace ServiceCreds

variable (env : CredsEnv)

/-- The constructor. The control point wants the application id of Qobuz at once. -/
def make (inm u p ep : String) : ServiceCreds :=
  let creds : ServiceCreds := ⟨inm, u, p, ep, true, [], "", ""⟩
  if inm = "qobuz" then
    if env.started inm then
      match (env.callproc inm "getappid" []).bind fun res => res "appid" with
      | some appid => { creds with servicedata := [("appid", appid)], data := appid }
      | none => creds
    else { creds with data := "0" }
  else if inm = "tidal" then
    { creds with data := if env.tidalapitoken = "" then "pl4Vc0hemlAXD0mN" else env.tidalapitoken }
  else creds

def clearUserData (creds : ServiceCreds) : ServiceCreds :=
  { creds with user := "", password := "", encryptedpass := "" }

def token (creds : ServiceCreds) : String := (creds.servicedata.lookup "token").getD ""

/-- The second value which comes with a token. -/
def second (creds : ServiceCreds) : String :=
  if creds.servicename = "qobuz" then "appid" else "country"

/-- The values of a login are stored one by one, until one is missing. -/
def store (creds : ServiceCreds) (res : SlaveResult) : List String → ServiceCreds × Bool
  | [] => (creds, true)
  | toknm :: rest =>
      match res toknm with
      | none => (creds, false)
      | some value =>
          store { creds with servicedata := VarMap.set creds.servicedata toknm value } res rest

/-- What the service answers to the user name and the password. -/
def authenticate (creds : ServiceCreds) : Option SlaveResult :=
  if env.started creds.servicename then
    env.callproc creds.servicename "login" [("user", creds.user), ("password", creds.password)]
  else none

/-- `login`, with the token if there is one. -/
def login (creds : ServiceCreds) : ServiceCreds × String :=
  if creds.servicename ∉ ["qobuz", "tidal"] then (creds, "")
  else if creds.token ≠ "" then (creds, creds.token)
  else
    match creds.authenticate env with
    | none => (creds, "")
    | some res =>
        match creds.store res ["token", creds.second] with
        | (creds, false) => (creds, "")
        | (creds, true) =>
            ({ creds with data := (creds.servicedata.lookup creds.second).getD "" }, creds.token)

def logout (creds : ServiceCreds) : ServiceCreds := { creds with servicedata := [] }

def supported (creds : ServiceCreds) : Prop := creds.servicename ∈ ["qobuz", "tidal"]

@[simp] theorem token_make (env : CredsEnv) (inm u p ep : String) :
    (make env inm u p ep).token = "" := by
  unfold make
  dsimp only
  split
  · split
    · split <;> rfl
    · rfl
  · split <;> rfl

theorem make_user (env : CredsEnv) (inm u p ep : String) :
    (make env inm u p ep).user = u ∧ (make env inm u p ep).password = p ∧
      (make env inm u p ep).encryptedpass = ep ∧ (make env inm u p ep).servicename = inm := by
  unfold make
  dsimp only
  split
  · split
    · split <;> exact ⟨rfl, rfl, rfl, rfl⟩
    · exact ⟨rfl, rfl, rfl, rfl⟩
  · split <;> exact ⟨rfl, rfl, rfl, rfl⟩

end ServiceCreds

/-- The service. `screds` is the file of the saved credentials, and `m_state` what the
subscribers were last told. The sequence number is an `int`, for which an overflow has no
meaning. -/
structure OHCredentials where
  pubkey : String
  seq : Int := 1
  creds : List (String × ServiceCreds) := []
  screds : List (String × String × String × String) := []
  m_state : StateMap := []

/-- What an action returns, with its output arguments and the events it has sent. -/
structure CredsReply where
  ret : Int
  args : List (String × String) := []
  events : List StateMap := []
deriving DecidableEq

def UPNP_E_SUCCESS : Int := 0

def UPNP_E_INVALID_PARAM : Int := -101

def UPNP_E_INTERNAL_ERROR : Int := -911

namespace OHCredentials

variable (env : CredsEnv) (m : OHCredentials)

def value (name : String) : String :=
  if name = "Ids" then idstring
  else if name = "PublicKey" then m.pubkey
  else toString m.seq

def makestate : StateMap := OHServiceKind.makestate .credentials m.value

def onEvent : OHCredentials × List StateMap :=
  let changed := diffmaps m.m_state m.makestate
  ({ m with m_state := m.makestate }, if changed = [] then [] else [changed])

/-- The library asks for everything when there is a new subscriber. -/
def subscribe : OHCredentials := { m with m_state := m.makestate }

/-- `seq++`. -/
def increment : Option OHCredentials :=
  if m.seq = 2147483647 then none else some { m with seq := m.seq + 1 }

def save : OHCredentials :=
  if env.saved then
    { m with screds := m.creds.map fun cred =>
        (cred.2.servicename, cred.2.user, cred.2.password, cred.2.encryptedpass) }
  else m

/-- `tryLoad`, when the service is made. -/
def tryLoad : OHCredentials :=
  if env.doingsavetofile then
    { m with creds := idmap.filterMap fun service =>
        (m.screds.lookup service.2).map fun saved =>
          (service.1, ServiceCreds.make env service.2 saved.1 saved.2.1 saved.2.2) }
  else m

def insertCreds (in_Id in_UserName plainpass in_Password : String) : OHCredentials × Int :=
  match idmap.lookup in_Id with
  | none => (m, 800)
  | some shortid =>
      match m.creds.lookup in_Id with
      | none =>
          let cred := ServiceCreds.make env shortid in_UserName plainpass in_Password
          ({ m with creds := VarMap.set m.creds in_Id cred }, 0)
      | some cred =>
          if in_UserName = "" then (m, 0)
          else
            let cred := { cred with
              user := in_UserName
              password := plainpass
              encryptedpass := in_Password }
            ({ m with creds := VarMap.set m.creds in_Id cred }, 0)

def setEnabled (id : String) (enabled : Bool) : OHCredentials × Bool :=
  match m.creds.lookup id with
  | none => (m, false)
  | some cred =>
      ({ m with creds := VarMap.set m.creds id { cred with enabled := enabled } }, true)

/-- `none` is an overflow of the sequence number. -/
def actSet (Id UserName Password : Option String) : Option (OHCredentials × CredsReply) :=
  match Id, UserName, Password with
  | some in_Id, some in_UserName, some in_Password =>
      match env.decrypt in_Password with
      | none => some (m, ⟨UPNP_E_INVALID_PARAM, [], []⟩)
      | some plainpass =>
          match m.insertCreds env in_Id in_UserName plainpass in_Password with
          | (m, 0) =>
              m.increment.map fun m =>
                let (m, events) := (m.save env).onEvent
                let (m, done) := m.setEnabled in_Id true
                (m, ⟨if done then UPNP_E_SUCCESS else 800, [], events⟩)
          | (m, ret) => some (m, ⟨ret, [], []⟩)
  | _, _, _ => some (m, ⟨UPNP_E_INVALID_PARAM, [], []⟩)

def actLogin (Id : Option String) : Option (OHCredentials × CredsReply) :=
  match Id with
  | none => some (m, ⟨UPNP_E_INVALID_PARAM, [], []⟩)
  | some in_Id =>
      match m.creds.lookup in_Id with
      | none => some (m, ⟨800, [], []⟩)
      | some cred =>
          let (cred, token) := cred.login env
          -- A failed login erases the probably incorrect data from memory and disk
          let m :=
            if token = "" then
              save env { m with creds := VarMap.set m.creds in_Id cred.clearUserData }
            else { m with creds := VarMap.set m.creds in_Id cred }
          m.increment.map fun m =>
            (m, ⟨if token = "" then 801 else UPNP_E_SUCCESS, [("Token", token)], []⟩)

def actReLogin (Id CurrentToken : Option String) : Option (OHCredentials × CredsReply) :=
  match Id, CurrentToken with
  | some in_Id, some _ =>
      match m.creds.lookup in_Id with
      | none => some (m, ⟨800, [], []⟩)
      | some cred =>
          let (cred, token) := cred.logout.login env
          let m := { m with creds := VarMap.set m.creds in_Id cred }
          if token = "" then some (m, ⟨801, [], []⟩)
          else m.increment.map fun m => (m, ⟨UPNP_E_SUCCESS, [("NewToken", token)], []⟩)
  | _, _ => some (m, ⟨UPNP_E_INVALID_PARAM, [], []⟩)

def actClear (Id : Option String) : OHCredentials × CredsReply :=
  match Id with
  | none => (m, ⟨UPNP_E_INVALID_PARAM, [], []⟩)
  | some in_Id =>
      match idmap.lookup in_Id with
      | none => (m, ⟨800, [], []⟩)
      | some _ =>
          (save env { m with creds := VarMap.erase m.creds in_Id }, ⟨UPNP_E_SUCCESS, [], []⟩)

def actSetEnabled (Id : Option String) (Enabled : Option Bool) :
    Option (OHCredentials × CredsReply) :=
  match Id, Enabled with
  | some in_Id, some in_Enabled =>
      match m.setEnabled in_Id in_Enabled with
      | (m, true) =>
          m.increment.map fun m =>
            let (m, events) := m.onEvent
            (m, ⟨UPNP_E_SUCCESS, [], events⟩)
      | (m, false) => some (m, ⟨800, [], []⟩)
  | _, _ => some (m, ⟨UPNP_E_INVALID_PARAM, [], []⟩)

/-- The answer says that the service is enabled, whatever was set. -/
def actGet (Id : Option String) : OHCredentials × CredsReply :=
  match Id with
  | none => (m, ⟨UPNP_E_INVALID_PARAM, [], []⟩)
  | some in_Id =>
      let (m, _) := m.insertCreds env in_Id "" "" ""
      match m.creds.lookup in_Id with
      | none => (m, ⟨UPNP_E_INVALID_PARAM, [], []⟩)
      | some cred =>
          (m, ⟨UPNP_E_SUCCESS,
            [("UserName", cred.user), ("Password", cred.encryptedpass),
              ("Enabled", if cred.enabled then "1" else "1"), ("Status", cred.status),
              ("Data", cred.data)], []⟩)

def actGetSequenceNumber : OHCredentials × CredsReply :=
  let (m', events) := m.onEvent
  (m', ⟨UPNP_E_SUCCESS, [("SequenceNumber", toString m.seq)], events⟩)

inductive Action
  | set (Id UserName Password : Option String)
  | clear (Id : Option String)
  | setEnabled (Id : Option String) (Enabled : Option Bool)
  | get (Id : Option String)
  | login (Id : Option String)
  | reLogin (Id CurrentToken : Option String)
  | getIds
  | getPublicKey
  | getSequenceNumber

def execute : Action → Option (OHCredentials × CredsReply)
  | .set Id UserName Password => m.actSet env Id UserName Password
  | .clear Id => some (m.actClear env Id)
  | .setEnabled Id Enabled => m.actSetEnabled Id Enabled
  | .get Id => some (m.actGet env Id)
  | .login Id => m.actLogin env Id
  | .reLogin Id CurrentToken => m.actReLogin env Id CurrentToken
  | .getIds => some (m, ⟨UPNP_E_SUCCESS, [("Ids", idstring)], []⟩)
  | .getPublicKey =>
      some (m, ⟨if m.pubkey = "" then UPNP_E_INTERNAL_ERROR else UPNP_E_SUCCESS,
        [("PublicKey", m.pubkey)], []⟩)
  | .getSequenceNumber => some m.actGetSequenceNumber

section Records

variable {env : CredsEnv} {m m' : OHCredentials}

@[simp] theorem creds_save (env : CredsEnv) (m : OHCredentials) :
    (m.save env).creds = m.creds := by
  unfold save
  split <;> rfl

@[simp] theorem creds_onEvent (m : OHCredentials) : m.onEvent.1.creds = m.creds := rfl

theorem creds_increment (made : m.increment = some m') : m'.creds = m.creds := by
  unfold increment at made
  split at made
  · cases made
  · cases made
    rfl

theorem supported_of_idmap {id shortid : String} (known : idmap.lookup id = some shortid) :
    shortid ∈ ["qobuz", "tidal"] := by
  have all : ∀ service ∈ idmap, service.2 ∈ ["qobuz", "tidal"] := by decide
  obtain ⟨before, behind, same, -⟩ := List.lookup_eq_some_iff.mp known
  exact all (id, shortid) (by rw [same]; simp)

/-- A failed `insertCreds` changes nothing. -/
theorem insertCreds_failed {id user plain password : String}
    (failed : (m.insertCreds env id user plain password).2 ≠ 0) :
    (m.insertCreds env id user plain password).1 = m := by
  unfold insertCreds at failed ⊢
  split
  · rfl
  · rename_i known
    rw [known] at failed
    dsimp only at failed
    split at failed
    · exact absurd rfl failed
    · split at failed
      · exact absurd rfl failed
      · exact absurd rfl failed

/-- What `insertCreds` does when it succeeds: the record of the service is a new one, the same
one without a user name, or it has the new credentials. -/
theorem insertCreds_spec {id user plain password : String}
    (done : m.insertCreds env id user plain password = (m', 0)) :
    (idmap.lookup id).isSome ∧ ∃ cred, (∀ other, m'.creds.lookup other =
        if other = id then some cred else m.creds.lookup other) ∧
      ((m.creds.lookup id = none ∧ cred.supported ∧ cred.token = "" ∧ cred.user = user ∧
          cred.password = plain ∧ cred.encryptedpass = password) ∨
        (user = "" ∧ m.creds.lookup id = some cred) ∨
        (user ≠ "" ∧ ∃ before, m.creds.lookup id = some before ∧
          cred = { before with user, password := plain, encryptedpass := password })) := by
  unfold insertCreds at done
  cases known : idmap.lookup id with
  | none =>
      rw [known] at done
      exact absurd (Prod.mk.inj done).2 (by decide)
  | some shortid =>
      rw [known] at done
      refine ⟨rfl, ?_⟩
      cases there : m.creds.lookup id with
      | none =>
          rw [there] at done
          obtain ⟨rfl, -⟩ := Prod.mk.inj done
          obtain ⟨user_eq, password_eq, encrypted_eq, name_eq⟩ :=
            ServiceCreds.make_user env shortid user plain password
          refine ⟨_, fun other => VarMap.lookup_set _ _ _ _, .inl ⟨rfl, ?_, ?_⟩⟩
          · rw [ServiceCreds.supported, name_eq]
            exact supported_of_idmap known
          · exact ⟨ServiceCreds.token_make _ _ _ _ _, user_eq, password_eq, encrypted_eq⟩
      | some before =>
          rw [there] at done
          dsimp only at done
          split at done
          · rename_i empty
            obtain ⟨rfl, -⟩ := Prod.mk.inj done
            refine ⟨before, fun other => ?_, .inr (.inl ⟨empty, rfl⟩)⟩
            split
            · rename_i same
              rw [same, there]
            · rfl
          · rename_i filled
            obtain ⟨rfl, -⟩ := Prod.mk.inj done
            exact ⟨_, fun other => VarMap.lookup_set _ _ _ _,
              .inr (.inr ⟨filled, before, rfl, rfl⟩)⟩

theorem setEnabled_spec {id : String} {enabled : Bool} (other : String) :
    (m.setEnabled id enabled).1.creds.lookup other =
      if other = id then (m.creds.lookup id).map fun cred => { cred with enabled }
      else m.creds.lookup other := by
  unfold OHCredentials.setEnabled
  cases there : m.creds.lookup id with
  | none =>
      dsimp only
      split
      · rename_i same
        rw [same, there]
        rfl
      · rfl
  | some cred => exact VarMap.lookup_set _ _ _ _

/-- The services which are loaded. -/
theorem known_tryLoad (env : CredsEnv) {m : OHCredentials} {id : String} {cred : ServiceCreds}
    (fresh : m.creds = []) (member : (id, cred) ∈ (m.tryLoad env).creds) :
    (idmap.lookup id).isSome ∧ cred.supported ∧ cred.token = "" := by
  unfold tryLoad at member
  split at member
  · obtain ⟨service, known, made⟩ := List.mem_filterMap.mp member
    obtain ⟨saved, -, same⟩ := Option.map_eq_some_iff.mp made
    obtain ⟨rfl, rfl⟩ := Prod.mk.inj same
    obtain ⟨-, -, -, name⟩ :=
      ServiceCreds.make_user env service.2 saved.1 saved.2.1 saved.2.2
    have all : ∀ service ∈ idmap,
        (idmap.lookup service.1).isSome ∧ service.2 ∈ ["qobuz", "tidal"] := by decide
    obtain ⟨inside, supported⟩ := all service known
    refine ⟨inside, ?_, ServiceCreds.token_make _ _ _ _ _⟩
    rw [ServiceCreds.supported, name]
    exact supported
  · rw [fresh] at member
    cases member

theorem actSet_spec {Id UserName Password : Option String} {reply : CredsReply}
    (taken : m.actSet env Id UserName Password = some (m', reply)) :
    (m' = m ∧ reply.ret ≠ UPNP_E_SUCCESS) ∨
      ∃ id user password plain m₁, Id = some id ∧ UserName = some user ∧
        Password = some password ∧ env.decrypt password = some plain ∧
        m.insertCreds env id user plain password = (m₁, 0) ∧
        reply.ret = UPNP_E_SUCCESS ∧
        ∀ other, m'.creds.lookup other =
          if other = id then (m₁.creds.lookup id).map fun cred => { cred with enabled := true }
          else m₁.creds.lookup other := by
  unfold actSet at taken
  split at taken
  · rename_i id user password
    cases plain : env.decrypt password with
    | none =>
        rw [plain, Option.some.injEq] at taken
        obtain ⟨rfl, rfl⟩ := Prod.mk.inj taken
        exact .inl ⟨rfl, by decide⟩
    | some plainpass =>
        simp only [plain] at taken
        split at taken
        · rename_i m₁ inserted
          rw [Option.map_eq_some_iff] at taken
          obtain ⟨m₂, counted, made⟩ := taken
          obtain ⟨rfl, rfl⟩ := Prod.mk.inj made
          refine .inr ⟨id, user, password, plainpass, m₁, rfl, rfl, rfl, plain, inserted, ?_, ?_⟩
          · obtain ⟨-, cred, lookup, -⟩ := insertCreds_spec inserted
            have there : (m₂.save env).onEvent.1.creds.lookup id = some cred := by
              rw [creds_onEvent, creds_save, creds_increment counted, lookup, if_pos rfl]
            rw [OHCredentials.setEnabled, there]
            rfl
          · intro other
            rw [setEnabled_spec, creds_onEvent, creds_save, creds_increment counted]
        · rename_i m₁ ret failed inserted
          rw [Option.some.injEq] at taken
          obtain ⟨rfl, rfl⟩ := Prod.mk.inj taken
          refine .inl ⟨?_, failed⟩
          have kept := insertCreds_failed (by rw [inserted]; exact failed)
          rw [inserted] at kept
          exact kept
  · rw [Option.some.injEq] at taken
    obtain ⟨rfl, rfl⟩ := Prod.mk.inj taken
    exact .inl ⟨rfl, by decide⟩

/-- A new sequence number, and the event which tells it. -/
structure Announced (m m' : OHCredentials) (events : List StateMap) : Prop where
  seq : m'.seq = m.seq + 1
  told : ∃ n : OHCredentials, n.seq = m'.seq ∧ n.m_state = m.m_state ∧ events = n.onEvent.2 ∧
    m'.m_state = n.makestate

theorem seq_increment (made : m.increment = some m') :
    m'.seq = m.seq + 1 ∧ m'.m_state = m.m_state := by
  unfold increment at made
  split at made
  · cases made
  · cases made
    exact ⟨rfl, rfl⟩

@[simp] theorem state_save (env : CredsEnv) (m : OHCredentials) :
    (m.save env).seq = m.seq ∧ (m.save env).m_state = m.m_state := by
  unfold save
  split <;> exact ⟨rfl, rfl⟩

@[simp] theorem state_setEnabled (m : OHCredentials) (id : String) (enabled : Bool) :
    (m.setEnabled id enabled).1.seq = m.seq ∧
      (m.setEnabled id enabled).1.m_state = m.m_state := by
  unfold OHCredentials.setEnabled
  split <;> exact ⟨rfl, rfl⟩

variable (env) in
theorem state_insertCreds (m : OHCredentials) (id user plain password : String) :
    (m.insertCreds env id user plain password).1.seq = m.seq ∧
      (m.insertCreds env id user plain password).1.m_state = m.m_state := by
  unfold insertCreds
  split
  · exact ⟨rfl, rfl⟩
  · split
    · exact ⟨rfl, rfl⟩
    · split <;> exact ⟨rfl, rfl⟩

theorem announced_actSet {Id UserName Password : Option String} {reply : CredsReply}
    (taken : m.actSet env Id UserName Password = some (m', reply))
    (done : reply.ret = UPNP_E_SUCCESS) : Announced m m' reply.events := by
  unfold actSet at taken
  split at taken
  · rename_i id user password
    cases plain : env.decrypt password with
    | none =>
        rw [plain, Option.some.injEq] at taken
        obtain ⟨rfl, rfl⟩ := Prod.mk.inj taken
        exact absurd done (by decide)
    | some plainpass =>
        simp only [plain] at taken
        have kept := state_insertCreds env m id user plainpass password
        split at taken
        · rename_i m₁ inserted
          rw [inserted] at kept
          rw [Option.map_eq_some_iff] at taken
          obtain ⟨m₂, counted, made⟩ := taken
          obtain ⟨seq, state⟩ := seq_increment counted
          obtain ⟨rfl, rfl⟩ := Prod.mk.inj made
          have enabled := state_setEnabled (m₂.save env).onEvent.1 id true
          have saved := state_save env m₂
          refine ⟨?_, m₂.save env, ?_, ?_, rfl, ?_⟩
          · rw [enabled.1]
            exact saved.1.trans (seq.trans (by rw [kept.1]))
          · rw [enabled.1]
            rfl
          · exact saved.2.trans (state.trans kept.2)
          · exact enabled.2
        · rename_i m₁ ret failed inserted
          rw [Option.some.injEq] at taken
          obtain ⟨rfl, rfl⟩ := Prod.mk.inj taken
          exact absurd done failed
  · rw [Option.some.injEq] at taken
    obtain ⟨rfl, rfl⟩ := Prod.mk.inj taken
    exact absurd done (by decide)

theorem actLogin_spec {Id : Option String} {reply : CredsReply}
    (taken : m.actLogin env Id = some (m', reply)) :
    (m' = m ∧ reply.ret ≠ UPNP_E_SUCCESS ∧ reply.ret ≠ 801 ∧
      ∀ id, Id = some id → m.creds.lookup id = none) ∨
      ∃ id cred, Id = some id ∧ m.creds.lookup id = some cred ∧
        (m'.seq = m.seq + 1 ∧ m'.m_state = m.m_state) ∧
        m'.creds = VarMap.set m.creds id
          (if (cred.login env).2 = "" then (cred.login env).1.clearUserData
            else (cred.login env).1) ∧
        reply = ⟨if (cred.login env).2 = "" then 801 else UPNP_E_SUCCESS,
          [("Token", (cred.login env).2)], []⟩ := by
  unfold actLogin at taken
  cases Id with
  | none =>
      rw [Option.some.injEq] at taken
      obtain ⟨rfl, rfl⟩ := Prod.mk.inj taken
      exact .inl ⟨rfl, by decide, by decide, nofun⟩
  | some id =>
      dsimp only at taken
      cases there : m.creds.lookup id with
      | none =>
          rw [there, Option.some.injEq] at taken
          obtain ⟨rfl, rfl⟩ := Prod.mk.inj taken
          exact .inl ⟨rfl, by decide, by decide, fun other same => Option.some.inj same ▸ there⟩
      | some cred =>
          rw [there] at taken
          dsimp only at taken
          rw [Option.map_eq_some_iff] at taken
          obtain ⟨m₁, counted, made⟩ := taken
          obtain ⟨rfl, rfl⟩ := Prod.mk.inj made
          obtain ⟨seq, state⟩ := seq_increment counted
          refine .inr ⟨id, cred, rfl, there, ⟨?_, ?_⟩, ?_, rfl⟩
          · rw [seq]
            split
            · rw [(state_save env _).1]
            · rfl
          · rw [state]
            split
            · rw [(state_save env _).2]
            · rfl
          · rw [creds_increment counted]
            split
            · rw [creds_save]
            · rfl

theorem actReLogin_spec {Id CurrentToken : Option String} {reply : CredsReply}
    (taken : m.actReLogin env Id CurrentToken = some (m', reply)) :
    (m' = m ∧ reply.ret ≠ UPNP_E_SUCCESS) ∨
      ∃ id current cred, Id = some id ∧ CurrentToken = some current ∧
        m.creds.lookup id = some cred ∧
        (m.seq ≤ m'.seq ∧ m'.m_state = m.m_state) ∧
        m'.creds = VarMap.set m.creds id (cred.logout.login env).1 ∧
        (((cred.logout.login env).2 = "" ∧ reply = ⟨801, [], []⟩) ∨
          ((cred.logout.login env).2 ≠ "" ∧
            reply = ⟨UPNP_E_SUCCESS, [("NewToken", (cred.logout.login env).2)], []⟩)) := by
  unfold actReLogin at taken
  split at taken
  · rename_i id current
    cases there : m.creds.lookup id with
    | none =>
        rw [there, Option.some.injEq] at taken
        obtain ⟨rfl, rfl⟩ := Prod.mk.inj taken
        exact .inl ⟨rfl, by decide⟩
    | some cred =>
        rw [there] at taken
        dsimp only at taken
        refine .inr ⟨id, current, cred, rfl, rfl, there, ?_⟩
        split at taken
        · rename_i refused
          rw [Option.some.injEq] at taken
          obtain ⟨rfl, rfl⟩ := Prod.mk.inj taken
          exact ⟨⟨Int.le_refl _, rfl⟩, rfl, .inl ⟨refused, rfl⟩⟩
        · rename_i given
          rw [Option.map_eq_some_iff] at taken
          obtain ⟨m₁, counted, made⟩ := taken
          obtain ⟨rfl, rfl⟩ := Prod.mk.inj made
          obtain ⟨seq, state⟩ := seq_increment counted
          refine ⟨⟨?_, state⟩, creds_increment counted, .inr ⟨given, rfl⟩⟩
          dsimp only at seq
          omega
  · rw [Option.some.injEq] at taken
    obtain ⟨rfl, rfl⟩ := Prod.mk.inj taken
    exact .inl ⟨rfl, by decide⟩

end Records

end OHCredentials

end Upmpdcli
