import Upmpdcli.Cdplugins.ConftreeWritten
import Upmpdcli.ConftreeReopen
import Upmpdcli.Lib.Dict
import Upmpdcli.Lib.Utf8
import Upmpdcli.OHCredentialsTokens

set_option autoImplicit false

/- The file of the credentials: how the service writes it, and who reads it. -/
namespace Upmpdcli.OHCredentials

open Conftree

/-- The bytes of a text. -/
def text (s : String) : Bytes := Utf8.encode s.toList

/-- What is saved of a service. -/
def savedFields (cred : ServiceCreds) : List (String × String) :=
  [("user", cred.user), ("pass", cred.password), ("epass", cred.encryptedpass)]

/-- The variables of all the services. -/
def savedVars (creds : List (String × ServiceCreds)) : List (Bytes × Bytes) :=
  creds.flatMap fun cred => (savedFields cred.2).map fun field =>
    (text (cred.2.servicename ++ field.1), text field.2)

/-- `saveToConfTree`, which looks at no result, on a disk which takes every write. -/
def saveToConfTree (credsconf : Disk) (creds : List (String × ServiceCreds)) : Option Disk :=
  let sets := (savedVars creds).map fun var => (Disk.Op.set var.1 var.2 [], ({} : DiskEnv))
  (Machine.run Disk.step credsconf ((.clear, {}) :: sets)).map Prod.fst

/-- What `tryLoad` reads for a service: its user name, its password and the encrypted one. -/
def loadCreds (path_tildexpand : Bytes → Bytes) (screds : Bytes) (shortid : String) :
    Option (Bytes × Bytes × Bytes) := do
  let credsconf := ConfSimple.ofFile path_tildexpand {} .ro screds
  let user ← credsconf.get (text (shortid ++ "user")) []
  let pass ← credsconf.get (text (shortid ++ "pass")) []
  let epass ← credsconf.get (text (shortid ++ "epass")) []
  return (user, pass, epass)

end Upmpdcli.OHCredentials

namespace Upmpdcli.Pycommon

open Conftree

/-- `get` with a text, in no section. The outer `none` is an exception of `decode`. -/
def ConfSimple.getText (conf : ConfSimple) (nm : String) : Option (Option (List Char)) :=
  match conf.getbin (Utf8.encode nm.toList) [] with
  | none => some none
  | some value => (Utf8.decodeStrict value).map some

/-- `not text` -/
def unset (value : Option (List Char)) : Bool := value.getD [] = []

/-- `getserviceuserpass`, with what `getOptionValue` gives. -/
def getserviceuserpass (expanduser : Bytes → Bytes) (getOptionValue : String → Option (List Char))
    (screds : Bytes) (servicename : String) : Option (Option (List Char) × Option (List Char)) :=
  let username := getOptionValue (servicename ++ "user")
  let password := getOptionValue (servicename ++ "pass")
  if unset username ∨ unset password then do
    let altconf := ConfSimple.ofFile expanduser screds
    let username ← altconf.getText (servicename ++ "user")
    let password ← altconf.getText (servicename ++ "pass")
    return (username, password)
  else some (username, password)

end Upmpdcli.Pycommon

namespace Upmpdcli.OHCredentials

open Conftree

/-- The file holds this value for whoever reads it as the service does. -/
structure Fits (cred : ServiceCreds) : Prop where
  user : Value (text cred.user)
  password : Value (text cred.password)
  encryptedpass : Value (text cred.encryptedpass)

/-- There is one record for each service, under its own name. -/
structure Kept (m : OHCredentials) : Prop where
  single : (m.creds.map Prod.fst).Nodup
  named : ∀ entry ∈ m.creds, idmap.lookup entry.1 = some entry.2.servicename

section Kept

variable {env : CredsEnv} {m m' : OHCredentials} {id : String} {cred : ServiceCreds}

theorem Kept.of_creds (kept : Kept m) (same : m'.creds = m.creds) : Kept m' where
  single := by
    rw [same]
    exact kept.single
  named := by
    rw [same]
    exact kept.named

theorem Kept.set (kept : Kept m) (named : idmap.lookup id = some cred.servicename) :
    Kept { m with creds := VarMap.set m.creds id cred } where
  single := VarMap.nodup_set kept.single id cred
  named entry member := by
    rcases VarMap.mem_set member with rfl | old
    · exact named
    · exact kept.named entry old

theorem Kept.erase (kept : Kept m) (id : String) :
    Kept { m with creds := VarMap.erase m.creds id } where
  single := VarMap.nodup_erase kept.single id
  named entry member := kept.named entry (VarMap.mem_erase member).1

theorem Kept.lookup (kept : Kept m) (found : m.creds.lookup id = some cred) :
    idmap.lookup id = some cred.servicename := kept.named (id, cred) (Dict.mem_of_lookup found)

theorem Kept.insertCreds (kept : Kept m) (env : CredsEnv) (id user plain password : String) :
    Kept (m.insertCreds env id user plain password).1 := by
  unfold OHCredentials.insertCreds
  split
  · exact kept
  · rename_i shortid known
    split
    · apply kept.set
      rw [(ServiceCreds.make_user env shortid user plain password).2.2.2]
      exact known
    · rename_i cred found
      split
      · exact kept
      · have named := kept.lookup found
        exact kept.set named

theorem Kept.setEnabled (kept : Kept m) (id : String) (enabled : Bool) :
    Kept (m.setEnabled id enabled).1 := by
  unfold OHCredentials.setEnabled
  split
  · exact kept
  · rename_i cred found
    have named := kept.lookup found
    exact kept.set named

theorem servicename_store (res : SlaveResult) (toknames : List String) (cred : ServiceCreds) :
    (cred.store res toknames).1.servicename = cred.servicename := by
  induction toknames generalizing cred with
  | nil => rfl
  | cons toknm rest ih =>
      unfold ServiceCreds.store
      split
      · rfl
      · exact ih _

theorem servicename_login (env : CredsEnv) (cred : ServiceCreds) :
    (cred.login env).1.servicename = cred.servicename := by
  unfold ServiceCreds.login
  split
  · rfl
  · split
    · rfl
    · split
      · rfl
      · rename_i res answered
        have stored := servicename_store res ["token", cred.second] cred
        split
        · rename_i failed
          rw [failed] at stored
          exact stored
        · rename_i done
          rw [done] at stored
          exact stored

theorem Kept.increment (kept : Kept m) (made : m.increment = some m') : Kept m' :=
  kept.of_creds (creds_increment made)

theorem Kept.actSet (kept : Kept m) {Id UserName Password : Option String} {reply : CredsReply}
    (taken : m.actSet env Id UserName Password = some (m', reply)) : Kept m' := by
  unfold OHCredentials.actSet at taken
  split at taken
  · rename_i id user password
    split at taken
    · cases taken
      exact kept
    · rename_i plain _
      have inserted := kept.insertCreds env id user plain password
      split at taken
      · rename_i m₁ done
        rw [done] at inserted
        obtain ⟨m₂, counted, made⟩ := Option.map_eq_some_iff.mp taken
        have saved : Kept (m₂.save env).onEvent.1 :=
          (inserted.increment counted).of_creds ((creds_onEvent _).trans (creds_save env m₂))
        have after := saved.setEnabled id true
        obtain ⟨same, -⟩ := Prod.mk.inj made
        rw [← same]
        exact after
      · rename_i m₁ ret _ done
        rw [done] at inserted
        cases taken
        exact inserted
  · cases taken
    exact kept

theorem Kept.actLogin (kept : Kept m) {Id : Option String} {reply : CredsReply}
    (taken : m.actLogin env Id = some (m', reply)) : Kept m' := by
  unfold OHCredentials.actLogin at taken
  split at taken
  · cases taken
    exact kept
  · rename_i id
    split at taken
    · cases taken
      exact kept
    · rename_i cred found
      have named : idmap.lookup id = some (cred.login env).1.servicename := by
        rw [servicename_login]
        exact kept.lookup found
      generalize cred.login env = logged at taken named
      obtain ⟨cred', token⟩ := logged
      obtain ⟨m₁, counted, made⟩ := Option.map_eq_some_iff.mp taken
      cases made
      split at counted
      · have cleared : Kept { m with creds := VarMap.set m.creds id cred'.clearUserData } :=
          kept.set named
        exact (cleared.of_creds (creds_save env _)).increment counted
      · exact (kept.set named).increment counted

theorem Kept.actReLogin (kept : Kept m) {Id CurrentToken : Option String} {reply : CredsReply}
    (taken : m.actReLogin env Id CurrentToken = some (m', reply)) : Kept m' := by
  unfold OHCredentials.actReLogin at taken
  split at taken
  · rename_i id _
    split at taken
    · cases taken
      exact kept
    · rename_i cred found
      have named : idmap.lookup id = some (cred.logout.login env).1.servicename := by
        have named := kept.lookup found
        rw [servicename_login]
        exact named
      generalize cred.logout.login env = logged at taken named
      obtain ⟨cred', token⟩ := logged
      dsimp only at taken
      split at taken
      · cases taken
        exact kept.set named
      · obtain ⟨m₁, counted, made⟩ := Option.map_eq_some_iff.mp taken
        cases made
        exact (kept.set named).increment counted
  · cases taken
    exact kept

theorem Kept.actClear (kept : Kept m) (Id : Option String) : Kept (m.actClear env Id).1 := by
  unfold OHCredentials.actClear
  split
  · exact kept
  · split
    · exact kept
    · exact (kept.erase _).of_creds (creds_save env _)

theorem Kept.actSetEnabled (kept : Kept m) {Id : Option String} {Enabled : Option Bool}
    {reply : CredsReply} (taken : m.actSetEnabled Id Enabled = some (m', reply)) : Kept m' := by
  unfold OHCredentials.actSetEnabled at taken
  split at taken
  · rename_i id enabled
    have after := kept.setEnabled id enabled
    split at taken
    · rename_i m₁ done
      rw [done] at after
      obtain ⟨m₂, counted, made⟩ := Option.map_eq_some_iff.mp taken
      cases made
      have counted : m₁.increment = some m₂ := counted
      exact (after.increment counted).of_creds (creds_onEvent m₂)
    · rename_i m₁ done
      rw [done] at after
      cases taken
      exact after
  · cases taken
    exact kept

theorem Kept.actGet (kept : Kept m) (Id : Option String) : Kept (m.actGet env Id).1 := by
  unfold OHCredentials.actGet
  split
  · exact kept
  · rename_i id
    have after := kept.insertCreds env id "" "" ""
    dsimp only
    split <;> exact after

theorem Kept.execute (kept : Kept m) {action : Action} {reply : CredsReply}
    (taken : m.execute env action = some (m', reply)) : Kept m' := by
  cases action with
  | set Id UserName Password => exact kept.actSet taken
  | clear Id =>
      have same : (m.actClear env Id).1 = m' := congrArg Prod.fst (Option.some.inj taken)
      exact same ▸ kept.actClear Id
  | setEnabled Id Enabled => exact kept.actSetEnabled taken
  | get Id =>
      have same : (m.actGet env Id).1 = m' := congrArg Prod.fst (Option.some.inj taken)
      exact same ▸ kept.actGet Id
  | login Id => exact kept.actLogin taken
  | reLogin Id CurrentToken => exact kept.actReLogin taken
  | getIds =>
      cases taken
      exact kept
  | getPublicKey =>
      cases taken
      exact kept
  | getSequenceNumber =>
      cases taken
      exact kept.of_creds (creds_onEvent m)

/-- What is found for some of the keys. -/
theorem keys_filterMap {α β γ δ : Type} (find : α × β → Option γ) (make : α × β → γ → δ)
    (entries : List (α × β)) :
    ((entries.filterMap fun entry => (find entry).map fun found => (entry.1, make entry found)).map
      Prod.fst).Sublist (entries.map Prod.fst) := by
  induction entries with
  | nil => exact List.Sublist.slnil
  | cons entry rest ih =>
      rw [List.filterMap_cons]
      cases find entry with
      | none => exact ih.cons entry.1
      | some found => exact ih.cons_cons entry.1

theorem kept_tryLoad (env : CredsEnv) {m : OHCredentials} (fresh : m.creds = []) :
    Kept (m.tryLoad env) := by
  unfold OHCredentials.tryLoad
  split
  · have of_idmap : (idmap.map Prod.fst).Nodup ∧
        ∀ service ∈ idmap, idmap.lookup service.1 = some service.2 := by decide
    constructor
    · exact of_idmap.1.sublist (keys_filterMap (fun service => m.screds.lookup service.2)
        (fun service saved => ServiceCreds.make env service.2 saved.1 saved.2.1 saved.2.2) idmap)
    · intro entry member
      obtain ⟨service, known, made⟩ := List.mem_filterMap.mp member
      obtain ⟨saved, -, rfl⟩ := Option.map_eq_some_iff.mp made
      rw [(ServiceCreds.make_user env service.2 _ _ _).2.2.2]
      exact of_idmap.2 service known
  · constructor
    · rw [fresh]
      exact List.nodup_nil
    · rw [fresh]
      exact fun entry member => absurd member List.not_mem_nil

end Kept

section Saving

/-- A configuration which has no sections and is in its file as it is. -/
structure Saving (d : Disk) : Prop where
  usable : d.Usable {} .rw
  going : d.conf.holdWrites = false
  written : d.file = d.conf.writeLines [] d.conf.order
  flat : ∀ line ∈ d.conf.order, line.kind = .var

variable {d next : Disk} {nm value : Bytes} {ret : Bool}

theorem write_fine (usable : d.Usable {} .rw) (going : d.conf.holdWrites = false) :
    d.write {} = ({ d with file := d.conf.writeLines [] d.conf.order }, true) := by
  unfold Disk.write
  rw [if_neg (by rw [usable.status]; decide), if_neg (by rw [going]; decide),
    if_pos usable.hasFile]
  rfl

theorem saving_clear (usable : d.Usable {} .rw) (going : d.conf.holdWrites = false) :
    ∃ next, d.step (.clear, {}) = some (next, true) ∧ Saving next ∧ next.conf.order = [] ∧
      next.conf.variables = fun _ _ => none := by
  obtain ⟨next, ret, taken, kept, vars⟩ := usable.step .clear {}
  have cleared := write_fine (d := { d with conf := { d.conf with submaps := [], order := [] } })
    ⟨indexed_empty _ rfl, usable.flags, usable.status, usable.hasFile⟩ going
  cases taken.symm.trans (congrArg some cleared)
  exact ⟨_, taken, ⟨kept, going, rfl, fun line member => absurd member List.not_mem_nil⟩, rfl, vars⟩

/-- In no section, a variable only gets a line of its own. -/
theorem lines_iSet {conf after : ConfSimple} (flags : conf.flags = {})
    (done : conf.iSet nm value [] false = .done after) :
    ∀ line ∈ after.order, line ∈ conf.order ∨ line.kind = .var := by
  have placed {conf : ConfSimple} (flags : conf.flags = {})
      (done : conf.orderVar nm [] false = .done after) :
      ∀ line ∈ after.order, line ∈ conf.order ∨ line.kind = .var := by
    obtain ⟨order, rfl, placed⟩ := ConfSimple.orderVar_done flags (fun init => by cases init) done
    intro line member
    apply (placed.lines line member).imp_right
    rintro rfl
    rfl
  unfold ConfSimple.iSet at done
  split at done
  · cases done
  · dsimp only at done
    split at done
    · rw [if_neg (by simp)] at done
      have lines := placed (by exact flags) done
      exact lines
    · split at done
      · cases done
        exact fun line member => .inl member
      · have lines := placed (by exact flags) done
        exact lines

theorem Saving.set (saving : Saving d) (nm value : Bytes) :
    ∃ next ret, d.step (.set nm value [], {}) = some (next, ret) ∧ Saving next ∧
      next.conf.variables = Disk.Op.apply {} true d.conf.variables (.set nm value []) ∧
      (next = d ∨ Disk.Op.Changes d.conf next.conf (.set nm value [])) := by
  obtain ⟨next, ret, taken, kept, vars⟩ := saving.usable.step (.set nm value []) {}
  refine ⟨next, ret, taken, ?_⟩
  rcases Disk.step_cases saving.usable.indexed (.set nm value []) {} with
    ⟨refused, -⟩ | ⟨after, changed, written | ⟨other, -⟩⟩
  · cases taken.symm.trans refused
    exact ⟨saving, vars, .inl rfl⟩
  · obtain ⟨submaps, order, rfl⟩ :=
      (ConfSimple.iSet_done saving.usable.flags (fun init => by cases init) changed.2).same
    have fine := write_fine (d := { d with conf := { d.conf with submaps, order } })
      ⟨changed.indexed saving.usable.indexed, saving.usable.flags, saving.usable.status,
        saving.usable.hasFile⟩ saving.going
    cases taken.symm.trans (written.trans (congrArg some fine))
    refine ⟨⟨kept, saving.going, rfl, fun line member => ?_⟩, vars, .inr changed⟩
    exact (lines_iSet saving.usable.flags changed.2 line member).elim (saving.flat line) id
  · cases other

/-- There is no comment to swallow a line. -/
theorem Saving.clean (saving : Saving d) : Clean d.conf := by
  intro line member comment
  rw [saving.flat line member] at comment
  rcases comment with kind | kind <;> cases kind

theorem find_saving (saving : Saving d) (nm : Bytes) :
    d.conf.find nm [] = d.conf.variables nm [] := by
  rw [ConfSimple.find_eq, ConfSimple.key_of_flags saving.usable.flags,
    ConfSimple.subkey_of_flags saving.usable.flags]

theorem Saving.sets (saving : Saving d) (vars : List (Bytes × Bytes)) :
    ∃ last rets, Machine.run Disk.step d (vars.map fun var => (.set var.1 var.2 [], {})) =
        some (last, rets) ∧ Saving last ∧
      (Sound d.conf → (∀ var ∈ vars, Name var.1 ∧ Value var.2) →
        Sound last.conf ∧ ∀ nm, last.conf.find nm [] =
          (VarMap.last vars nm).or (d.conf.find nm [])) := by
  induction vars generalizing d with
  | nil => exact ⟨d, [], rfl, saving, fun sound _ => ⟨sound, fun nm => rfl⟩⟩
  | cons var vars ih =>
      obtain ⟨next, ret, taken, still, vars_eq, changed⟩ := saving.set var.1 var.2
      obtain ⟨last, rets, ran, ends, read⟩ := ih still
      refine ⟨last, ret :: rets, (Machine.run_cons_iff _ _ _ _ _).mpr
        ⟨next, ret, rets, taken, ran, rfl⟩, ends, fun sound fits => ?_⟩
      rw [List.forall_mem_cons] at fits
      have sound' : Sound next.conf := by
        rcases changed with rfl | changed
        · exact sound
        · exact (changed.sound ⟨fits.1.1, fits.1.2, section_nil⟩ sound saving.clean).1
      obtain ⟨sound_last, found⟩ := read sound' fits.2
      refine ⟨sound_last, fun nm => ?_⟩
      rw [found, find_saving still, find_saving saving, vars_eq, Disk.Op.apply,
        if_pos ⟨rfl, fits.1.2.one_line⟩, Variables.assign, ← List.singleton_append,
        VarMap.last_append, VarMap.last_singleton]
      by_cases here : nm = var.1
      · rw [if_pos ⟨here, rfl⟩, if_pos here, Option.or_assoc]
        rfl
      · rw [if_neg fun both => here both.1, if_neg here, Option.or_none]

end Saving

section Saved

variable {path_tildexpand : Bytes → Bytes} {m : OHCredentials} {cred : ServiceCreds}
  {creds : List (String × ServiceCreds)} {last : Disk}

/-- A word in small letters can be the name of a variable. -/
theorem identifier_of_letters {word : String} (filled : word.toList ≠ [])
    (letters : ∀ c ∈ word.toList, 'a' ≤ c ∧ c ≤ 'z') : Identifier (text word) := by
  have range (c : Char) (member : c ∈ word.toList) : 97 ≤ c.toNat ∧ c.toNat ≤ 122 :=
    letters c member
  have ascii : ∀ c ∈ word.toList, c.toNat < 0x80 := fun c member => by
    have := range c member
    omega
  have special : ∀ d ∈ bytes "= \t\n\r#[", d.toNat < 97 := by simp [bytes, byte]
  rw [text, Utf8.encode_ascii ascii]
  refine ⟨fun none => filled (List.map_eq_nil_iff.mp none), fun d member => ?_⟩
  obtain ⟨c, inside, rfl⟩ := List.mem_map.mp member
  have letter := range c inside
  have code : (UInt8.ofNat c.toNat).toNat = c.toNat := Utf8.toNat_byte (by omega)
  refine ⟨fun sign => ?_, fun same => ?_, fun same => ?_⟩
  · have := special _ sign
    omega
  · have : (UInt8.ofNat c.toNat).toNat = 11 := congrArg UInt8.toNat same
    omega
  · have : (UInt8.ofNat c.toNat).toNat = 12 := congrArg UInt8.toNat same
    omega

/-- The names of the variables are apart, and the parser takes them. -/
theorem savedVars_names :
    (∀ shortid ∈ idmap.map Prod.snd, ∀ field ∈ ["user", "pass", "epass"],
      Identifier (text (shortid ++ field))) ∧
    ∀ shortid ∈ idmap.map Prod.snd, ∀ field ∈ ["user", "pass", "epass"],
      ∀ other ∈ idmap.map Prod.snd, ∀ field' ∈ ["user", "pass", "epass"],
        text (shortid ++ field) = text (other ++ field') → shortid = other ∧ field = field' := by
  have shortids : ∀ shortid ∈ idmap.map Prod.snd,
      shortid.toList ≠ [] ∧ ∀ c ∈ shortid.toList, 'a' ≤ c ∧ c ≤ 'z' := by simp [idmap]
  have fields : ∀ field ∈ ["user", "pass", "epass"], ∀ c ∈ field.toList, 'a' ≤ c ∧ c ≤ 'z' := by
    simp
  refine ⟨fun shortid known field one => ?_, by decide +kernel⟩
  obtain ⟨filled, letters⟩ := shortids shortid known
  apply identifier_of_letters
  · rw [String.toList_append]
    exact List.append_ne_nil_of_left_ne_nil filled _
  · rw [String.toList_append, List.forall_mem_append]
    exact ⟨letters, fields field one⟩

theorem mem_savedVars {var : Bytes × Bytes} (member : var ∈ savedVars creds) :
    ∃ entry ∈ creds, ∃ field ∈ savedFields entry.2,
      var = (text (entry.2.servicename ++ field.1), text field.2) := by
  obtain ⟨entry, inside, found⟩ := List.mem_flatMap.mp member
  obtain ⟨field, saved, same⟩ := List.mem_map.mp found
  exact ⟨entry, inside, field, saved, same.symm⟩

theorem mem_savedFields {field : String × String} (saved : field ∈ savedFields cred) :
    field.1 ∈ ["user", "pass", "epass"] := by
  have all : (savedFields cred).map Prod.fst = ["user", "pass", "epass"] := rfl
  rw [← all]
  exact List.mem_map_of_mem saved

theorem Kept.shortid (kept : Kept m) {entry : String × ServiceCreds} (member : entry ∈ m.creds) :
    entry.2.servicename ∈ idmap.map Prod.snd :=
  List.mem_map_of_mem (f := Prod.snd) (Dict.mem_of_lookup (kept.named entry member))

theorem Kept.identifier (kept : Kept m) {var : Bytes × Bytes} (member : var ∈ savedVars m.creds) :
    Identifier var.1 := by
  obtain ⟨entry, inside, field, saved, rfl⟩ := mem_savedVars member
  exact savedVars_names.1 _ (kept.shortid inside) _ (mem_savedFields saved)

theorem idmap_inj : ∀ service ∈ idmap, ∀ other ∈ idmap, service.2 = other.2 →
    service.1 = other.1 := by decide

theorem Kept.eq_of_servicename (kept : Kept m) {entry other : String × ServiceCreds}
    (member : entry ∈ m.creds) (inside : other ∈ m.creds)
    (same : entry.2.servicename = other.2.servicename) : entry = other :=
  List.inj_on_of_nodup_map kept.single member inside
    (idmap_inj _ (Dict.mem_of_lookup (kept.named entry member)) _
      (Dict.mem_of_lookup (kept.named other inside)) same)

theorem Kept.servicename (kept : Kept m) {service : String × String} (inside : service ∈ idmap)
    (there : m.creds.lookup service.1 = some cred) : cred.servicename = service.2 := by
  have distinct : (idmap.map Prod.fst).Nodup := by decide
  have named := kept.named _ (Dict.mem_of_lookup there)
  rw [VarMap.lookup_of_mem distinct inside] at named
  exact (Option.some.inj named).symm

/-- A service without a record has none under its short name. -/
theorem Kept.absent (kept : Kept m) {service : String × String} (inside : service ∈ idmap)
    (absent : m.creds.lookup service.1 = none) : ∀ entry ∈ m.creds,
      entry.2.servicename ≠ service.2 := by
  intro entry member shortid
  have id := idmap_inj _ inside _ (Dict.mem_of_lookup (kept.named entry member)) shortid.symm
  have there := VarMap.lookup_of_mem kept.single member
  rw [← id, absent] at there
  cases there

/-- Each variable is saved once. -/
theorem Kept.last_savedVars (kept : Kept m) {entry : String × ServiceCreds}
    (member : entry ∈ m.creds) {field : String × String} (saved : field ∈ savedFields entry.2) :
    VarMap.last (savedVars m.creds) (text (entry.2.servicename ++ field.1)) =
      some (text field.2) := by
  have there : (text (entry.2.servicename ++ field.1), text field.2) ∈ savedVars m.creds :=
    List.mem_flatMap.mpr ⟨entry, member, List.mem_map.mpr ⟨field, saved, rfl⟩⟩
  obtain ⟨value, found⟩ := Option.ne_none_iff_exists'.mp (VarMap.last_ne_none_of_mem there)
  obtain ⟨other, inside, field', saved', same⟩ := mem_savedVars (VarMap.mem_of_last found)
  obtain ⟨name, value_eq⟩ := Prod.mk.inj same
  obtain ⟨shortid, field_eq⟩ := savedVars_names.2 _ (kept.shortid member) _
    (mem_savedFields saved) _ (kept.shortid inside) _ (mem_savedFields saved') name
  have one := kept.eq_of_servicename member inside shortid
  have fields : ((savedFields other.2).map Prod.fst).Nodup :=
    (by decide : ["user", "pass", "epass"].Nodup)
  rw [one] at saved
  have same_field := List.inj_on_of_nodup_map fields saved saved' field_eq
  rw [found, value_eq, same_field]

/-- What the file is when the credentials have been saved. -/
structure Saved (creds : List (String × ServiceCreds)) (last : Disk) : Prop where
  saving : Saving last
  read : (∀ var ∈ savedVars creds, Name var.1 ∧ Value var.2) →
    Sound last.conf ∧ ∀ nm, last.conf.find nm [] = VarMap.last (savedVars creds) nm

theorem saved_saveToConfTree (path_tildexpand : Bytes → Bytes) (old : Bytes)
    (creds : List (String × ServiceCreds)) :
    ∃ last, saveToConfTree (.ofFile path_tildexpand {} .rw old) creds = some last ∧
      Saved creds last := by
  have usable := Disk.usable_ofFile path_tildexpand {} .rw old
  obtain ⟨submaps, order, same⟩ := (read_ofFile path_tildexpand {} .rw old).same
  have going : (Disk.ofFile path_tildexpand {} .rw old).conf.holdWrites = false := by
    rw [Disk.ofFile, same]
  obtain ⟨next, taken, saving, no_lines, none_left⟩ := saving_clear usable going
  obtain ⟨last, rets, ran, ends, read⟩ :=
    saving.sets (savedVars creds)
  refine ⟨last, ?_, ends, fun fits => ?_⟩
  · unfold saveToConfTree
    dsimp only
    rw [(Machine.run_cons_iff _ _ _ _ _).mpr ⟨next, true, rets, taken, ran, rfl⟩]
    rfl
  · have nothing (nm sk : Bytes) : next.conf.find nm sk = none := by
      rw [ConfSimple.find_eq, none_left]
    have sound : Sound next.conf := by
      refine ⟨saving.usable.flags, ?_, ?_, ?_⟩
      · rw [no_lines]
        exact fun line member => absurd member List.not_mem_nil
      · intro nm sk value found
        cases (nothing nm sk).symm.trans found
      · intro nm sk value found
        cases (nothing nm sk).symm.trans found
    obtain ⟨sound_last, found⟩ := read sound fits
    refine ⟨sound_last, fun nm => ?_⟩
    rw [found, nothing, Option.or_none]

/-- What is read back of the services at a start is what there was. -/
def Restored (path_tildexpand : Bytes → Bytes) (m : OHCredentials) (screds : Bytes) : Prop :=
  ∀ service ∈ idmap, loadCreds path_tildexpand screds service.2 =
    (m.creds.lookup service.1).map fun cred =>
      (text cred.user, text cred.password, text cred.encryptedpass)

theorem loadCreds_eq_some {screds : Bytes} {shortid : String} {user pass epass : Bytes} :
    loadCreds path_tildexpand screds shortid = some (user, pass, epass) ↔
      (ConfSimple.ofFile path_tildexpand {} .ro screds).find (text (shortid ++ "user")) [] =
          some user ∧
        (ConfSimple.ofFile path_tildexpand {} .ro screds).find (text (shortid ++ "pass")) [] =
          some pass ∧
        (ConfSimple.ofFile path_tildexpand {} .ro screds).find (text (shortid ++ "epass")) [] =
          some epass := by
  have readable : ¬ (ConfSimple.ofFile path_tildexpand {} .ro screds).status = .error := by
    rw [ofFile_status]
    decide
  simp only [loadCreds, ConfSimple.get, if_neg readable, bind, Option.bind_eq_some_iff, pure,
    Option.some.injEq, Prod.mk.injEq]
  grind

theorem fits_savedVars : (∀ var ∈ savedVars creds, Value var.2) ↔
    ∀ entry ∈ creds, Fits entry.2 := by
  constructor
  · intro fits entry member
    have field (field : String × String) (saved : field ∈ savedFields entry.2) :
        Value (text field.2) :=
      fits _ (List.mem_flatMap.mpr ⟨entry, member, List.mem_map.mpr ⟨field, saved, rfl⟩⟩)
    exact ⟨field ("user", _) (by simp [savedFields]), field ("pass", _) (by simp [savedFields]),
      field ("epass", _) (by simp [savedFields])⟩
  · intro fits var member
    obtain ⟨entry, inside, field, saved, rfl⟩ := mem_savedVars member
    simp only [savedFields, List.mem_cons, List.not_mem_nil, or_false] at saved
    rcases saved with rfl | rfl | rfl
    · exact (fits entry inside).user
    · exact (fits entry inside).password
    · exact (fits entry inside).encryptedpass

/-- The credentials survive a restart exactly when each of their texts is one which the format
keeps. -/
theorem restored_iff (kept : Kept m) (saved : Saved m.creds last) :
    Restored path_tildexpand m last.file ↔ ∀ entry ∈ m.creds, Fits entry.2 := by
  constructor
  · intro restored entry member
    have read := restored _ (Dict.mem_of_lookup (kept.named entry member))
    rw [VarMap.lookup_of_mem kept.single member] at read
    obtain ⟨user, pass, epass⟩ := loadCreds_eq_some.mp read
    have value (nm value : Bytes) (found : (ConfSimple.ofFile path_tildexpand {} .ro
        last.file).find nm [] = some value) : Value value :=
      ((sound_ofFile path_tildexpand .ro last.file).values nm [] value found).1
    exact ⟨value _ _ user, value _ _ pass, value _ _ epass⟩
  · intro fits service inside
    obtain ⟨sound, found⟩ := saved.read fun var member =>
      ⟨(kept.identifier member).name, fits_savedVars.mpr fits var member⟩
    have ok : last.conf.status ≠ .error := by
      rw [saved.saving.usable.status]
      decide
    have reread (nm : Bytes) : (ConfSimple.ofFile path_tildexpand {} .ro last.file).find nm [] =
        VarMap.last (savedVars m.creds) nm := by
      rw [saved.saving.written,
        find_ofFile_writeLines path_tildexpand .ro ok sound saved.saving.clean, found]
    cases there : m.creds.lookup service.1 with
    | some cred =>
        have member := Dict.mem_of_lookup there
        have shortid := kept.servicename inside there
        rw [Option.map_some, loadCreds_eq_some, reread, reread, reread, ← shortid]
        have read (field : String × String) (one : field ∈ savedFields cred) :=
          kept.last_savedVars member one
        exact ⟨read ("user", _) (by simp [savedFields]), read ("pass", _) (by simp [savedFields]),
          read ("epass", _) (by simp [savedFields])⟩
    | none =>
        rw [Option.map_none, Option.eq_none_iff_forall_ne_some]
        rintro ⟨user, pass, epass⟩ read
        have first := (loadCreds_eq_some.mp read).1
        rw [reread] at first
        obtain ⟨entry, member, field, one, same⟩ := mem_savedVars (VarMap.mem_of_last first)
        obtain ⟨name, -⟩ := Prod.mk.inj same
        have shortid := (savedVars_names.2 _ (List.mem_map_of_mem inside) _ (by decide) _
          (kept.shortid member) _ (mem_savedFields one) name).1
        exact kept.absent inside there entry member shortid.symm

/-- The lines of variables, one for each variable which is there. -/
theorem writeLines_of_flat {conf : ConfSimple} (ok : conf.status ≠ .error) {order : List ConfLine}
    (flat : ∀ line ∈ order, line.kind = .var) :
    conf.writeLines [] order =
      (order.filterMap fun line => (conf.find line.data []).map fun value =>
        (line.data, value)).flatMap fun var => varprinter var.1 var.2 := by
  induction order with
  | nil => rfl
  | cons line order ih =>
      rw [List.forall_mem_cons] at flat
      rw [ConfSimple.writeLines, flat.1]
      dsimp only
      rw [ConfSimple.get, if_neg ok, ih flat.2, List.filterMap_cons]
      cases conf.find line.data [] <;> rfl

variable {expanduser : Bytes → Bytes}

/-- The plugins read what has been saved. -/
theorem Saved.getbin (saved : Saved m.creds last) (kept : Kept m)
    (plain : ∀ var ∈ savedVars m.creds, Pycommon.PlainValue var.2) {nm value : Bytes}
    (there : VarMap.last (savedVars m.creds) nm = some value) :
    (Pycommon.ConfSimple.ofFile expanduser last.file).getbin nm [] = some value := by
  obtain ⟨sound, found⟩ := saved.read fun var member =>
    ⟨(kept.identifier member).name, (plain var member).toValue⟩
  have ok : last.conf.status ≠ .error := by
    rw [saved.saving.usable.status]
    decide
  let vars := last.conf.order.filterMap fun line => (last.conf.find line.data []).map fun value =>
    (line.data, value)
  have holds : ∀ var ∈ vars, VarMap.last (savedVars m.creds) var.1 = some var.2 := by
    intro var member
    obtain ⟨line, -, made⟩ := List.mem_filterMap.mp member
    obtain ⟨value, read, rfl⟩ := Option.map_eq_some_iff.mp made
    rw [← found]
    exact read
  have fits : ∀ var ∈ vars, Identifier var.1 ∧ Pycommon.PlainValue var.2 := by
    intro var member
    have inside := VarMap.mem_of_last (holds var member)
    exact ⟨kept.identifier inside, plain var inside⟩
  have inside : (nm, value) ∈ vars := by
    have covered := sound.covered nm [] value ((found nm).trans there)
    rw [mem_assigned_of_zone fun line member => by rw [saved.saving.flat line member]; decide]
      at covered
    obtain ⟨line, member, -, name⟩ := covered
    refine List.mem_filterMap.mpr ⟨line, member, ?_⟩
    rw [name, found, there]
    rfl
  rw [Pycommon.plugin_getbin, saved.saving.written, writeLines_of_flat ok saved.saving.flat,
    Pycommon.pluginAssignments_varprinter fits, List.map_map]
  have listed : (([], nm), value) ∈ vars.map (Pycommon.Assignment.py ∘ fun var =>
      { header := [], nm := var.1, value := var.2 }) := List.mem_map.mpr ⟨_, inside, rfl⟩
  obtain ⟨value', last_value⟩ := Option.ne_none_iff_exists'.mp (VarMap.last_ne_none_of_mem listed)
  obtain ⟨other, member, same⟩ := List.mem_map.mp (VarMap.mem_of_last last_value)
  have name : other.1 = nm := congrArg (fun var => var.1.2) same
  have other_value : other.2 = value' := congrArg (fun var => var.2) same
  have whole := holds other member
  rw [name, there, other_value] at whole
  rw [last_value, whole]

theorem getText_text {conf : Pycommon.ConfSimple} {nm value : String}
    (found : conf.getbin (text nm) [] = some (text value)) :
    conf.getText nm = some (some value.toList) := by
  have read : conf.getbin (Utf8.encode nm.toList) [] = some (text value) := found
  rw [Pycommon.ConfSimple.getText, read]
  dsimp only
  rw [text, Utf8.decodeStrict_encode]
  rfl

/-- A plugin without credentials of its own gets the ones which have been saved. -/
theorem Saved.getserviceuserpass (saved : Saved m.creds last) (kept : Kept m)
    (plain : ∀ var ∈ savedVars m.creds, Pycommon.PlainValue var.2)
    {entry : String × ServiceCreds} (member : entry ∈ m.creds)
    (getOptionValue : String → Option (List Char))
    (none_set : Pycommon.unset (getOptionValue (entry.2.servicename ++ "user")) ∨
      Pycommon.unset (getOptionValue (entry.2.servicename ++ "pass"))) :
    Pycommon.getserviceuserpass expanduser getOptionValue last.file entry.2.servicename =
      some (some entry.2.user.toList, some entry.2.password.toList) := by
  have read (field : String × String) (one : field ∈ savedFields entry.2) :
      (Pycommon.ConfSimple.ofFile expanduser last.file).getText (entry.2.servicename ++ field.1) =
        some (some field.2.toList) :=
    getText_text (saved.getbin kept plain (kept.last_savedVars member one))
  rw [Pycommon.getserviceuserpass]
  dsimp only
  rw [if_pos none_set, read ("user", entry.2.user) (by simp [savedFields]),
    read ("pass", entry.2.password) (by simp [savedFields])]
  rfl

/-- What is in the abstract file of the saved credentials. -/
theorem Kept.lookup_save (kept : Kept m) {env : CredsEnv} (saving : env.saved = true)
    {service : String × String} (inside : service ∈ idmap) :
    (m.save env).screds.lookup service.2 = (m.creds.lookup service.1).map fun cred =>
      (cred.user, cred.password, cred.encryptedpass) := by
  rw [save, if_pos saving]
  dsimp only
  cases there : m.creds.lookup service.1 with
  | some cred =>
      have member := Dict.mem_of_lookup there
      have distinct : ((m.creds.map fun cred => (cred.2.servicename, cred.2.user, cred.2.password,
          cred.2.encryptedpass)).map Prod.fst).Nodup := by
        rw [List.map_map]
        exact (List.Nodup.of_map _ kept.single).map_on fun entry first other second same =>
          kept.eq_of_servicename first second same
      rw [← kept.servicename inside there]
      exact VarMap.lookup_of_mem distinct (List.mem_map.mpr ⟨_, member, rfl⟩)
  | none =>
      apply VarMap.lookup_eq_none_of_not_mem
      rw [List.map_map]
      intro listed
      obtain ⟨entry, member, shortid⟩ := List.mem_map.mp listed
      exact kept.absent inside there entry member shortid

/-- The actions of control points, one after the other. -/
def run (env : CredsEnv) (pubkey : String) (screds : List (String × String × String × String))
    (actions : List (CredsEnv × Action)) : Option (OHCredentials × List CredsReply) :=
  Machine.run (fun m action => m.execute action.1 action.2) (tryLoad env { pubkey, screds }) actions

theorem kept_run {env : CredsEnv} {pubkey : String}
    {screds : List (String × String × String × String)} {actions : List (CredsEnv × Action)}
    {replies : List CredsReply} (ran : run env pubkey screds actions = some (m, replies)) :
    Kept m :=
  Machine.invariant_of_run (G := fun _ _ _ _ => True)
    (fun _ _ _ _ kept _ taken => kept.execute taken) _ m actions replies (kept_tryLoad env rfl)
    (Machine.along_true _ _ _) ran

/-- Whenever the credentials are saved: they are the ones after a restart exactly when the
format keeps each of their texts, and if it keeps them for the plugins too, a plugin which has
no credentials of its own gets them. -/
theorem restart_iff (path_tildexpand expanduser : Bytes → Bytes) {env : CredsEnv} {pubkey : String}
    {screds : List (String × String × String × String)} {actions : List (CredsEnv × Action)}
    {replies : List CredsReply} (ran : run env pubkey screds actions = some (m, replies))
    (old : Bytes) :
    ∃ last, saveToConfTree (.ofFile path_tildexpand {} .rw old) m.creds = some last ∧
      (Restored path_tildexpand m last.file ↔ ∀ entry ∈ m.creds, Fits entry.2) ∧
      ((∀ var ∈ savedVars m.creds, Pycommon.PlainValue var.2) →
        ∀ entry ∈ m.creds, ∀ getOptionValue : String → Option (List Char),
          Pycommon.unset (getOptionValue (entry.2.servicename ++ "user")) ∨
              Pycommon.unset (getOptionValue (entry.2.servicename ++ "pass")) →
            Pycommon.getserviceuserpass expanduser getOptionValue last.file entry.2.servicename =
              some (some entry.2.user.toList, some entry.2.password.toList)) := by
  have kept := kept_run ran
  obtain ⟨last, done, saved⟩ := saved_saveToConfTree path_tildexpand old m.creds
  exact ⟨last, done, restored_iff kept saved, fun plain entry member getOptionValue none_set =>
    saved.getserviceuserpass kept plain member getOptionValue none_set⟩

theorem plainValue_of_plain {value : Bytes}
    (plain : ∀ c ∈ value, Pycommon.whitespace.contains c = false ∧ c ≠ byte '\\') :
    Pycommon.PlainValue value := by
  have inside (c : UInt8) (member : c ∈ value) : c ∉ Pycommon.whitespace := by
    simpa using (plain c member).1
  have other {ws : Bytes} (less : ws ⊆ Pycommon.whitespace) (c : UInt8) (member : c ∈ value) :
      ws.contains c = false := by
    simpa using fun blank => inside c member (less blank)
  refine ⟨⟨⟨?_, ?_⟩, ?_, ?_⟩, ?_, ?_⟩
  · exact fun c first => other (by decide) c (List.mem_of_head? first)
  · exact fun c last => other (by decide) c (List.mem_of_getLast? last)
  · rw [List.any_eq_false]
    intro c member
    rw [other (by decide) c member]
    exact Bool.false_ne_true
  · exact fun last => (plain _ (List.mem_of_getLast? last)).2 rfl
  · exact fun c first => (plain c (List.mem_of_head? first)).1
  · exact fun c last => (plain c (List.mem_of_getLast? last)).1

open CredsRun (namedEnv) in
/-- One service which is set over what an older file had. -/
theorem restart_one :
    ∃ m replies last, run namedEnv "key" []
        [(namedEnv, .set (some "qobuz.com") (some "ann") (some "secret"))] = some (m, replies) ∧
      saveToConfTree (.ofFile id {} .rw (bytes "tidaluser = ben\n[s]\n")) m.creds = some last ∧
      Restored id m last.file ∧
      Pycommon.getserviceuserpass id (fun _ => none) last.file "qobuz" =
        some (some "ann".toList, some "secret".toList) := by
  have shown : (run namedEnv "key" []
      [(namedEnv, .set (some "qobuz.com") (some "ann") (some "secret"))]).map (fun out =>
        out.1.creds.map fun entry => (entry.2.servicename, entry.2.user, entry.2.password,
          entry.2.encryptedpass)) = some [("qobuz", "ann", "secret", "secret")] := by rfl
  obtain ⟨⟨m, replies⟩, ran, creds⟩ := Option.map_eq_some_iff.mp shown
  obtain ⟨entry, whole, fields⟩ := List.map_eq_singleton_iff.mp creds
  simp only [Prod.mk.injEq] at fields whole
  have plain : ∀ var ∈ savedVars m.creds, Pycommon.PlainValue var.2 := by
    intro var member
    rw [whole, savedVars, List.flatMap_singleton] at member
    obtain ⟨field, saved, rfl⟩ := List.mem_map.mp member
    apply plainValue_of_plain
    dsimp only
    simp only [savedFields, fields, List.mem_cons, List.not_mem_nil, or_false] at saved
    have texts : field.2 = "ann" ∨ field.2 = "secret" := by
      rcases saved with rfl | rfl | rfl
      · exact .inl rfl
      · exact .inr rfl
      · exact .inr rfl
    rcases texts with same | same
    · rw [same]
      decide +kernel
    · rw [same]
      decide +kernel
  have inside : entry ∈ m.creds := whole ▸ List.mem_singleton.mpr rfl
  obtain ⟨last, done, iff, plugin⟩ := restart_iff id id ran (bytes "tidaluser = ben\n[s]\n")
  have got := plugin plain entry inside (fun _ => none) (.inl rfl)
  rw [fields.1, fields.2.1, fields.2.2.1] at got
  exact ⟨m, replies, last, ran, done,
    iff.mpr (fits_savedVars.mp fun var member => (plain var member).toValue), got⟩

end Saved

end Upmpdcli.OHCredentials
