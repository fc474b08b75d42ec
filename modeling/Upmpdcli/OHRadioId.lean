import Upmpdcli.OHInfo
import Upmpdcli.Lib.Machine

set_option autoImplicit false

/- The current channel of the radio: who writes its id, and where the array of channels is
indexed with it. -/
namespace Upmpdcli

namespace OHRadio

/-- How a channel is memorized in the state of the program. -/
def reference (radio : RadioMeta) : String :=
  if radio.uri = "" then Smallut.stringsToString radio.metaScript else radio.uri

/-- The service as it is built: the channels of the configuration come after the one for
`SetChannel`, and a memorized channel is the current one again. -/
def new (channels : List RadioMeta) (sturl : Option String) : OHRadio :=
  let o_radios := { title := "Unknown radio" } :: channels
  let known := sturl.bind fun refstr => o_radios.findIdx? fun radio => reference radio = refstr
  { o_radios := o_radios, m_id := known.getD 0 }

/-- The ids which `IdArray` gives. -/
def ids (rd : OHRadio) : List Nat := List.range' 1 (rd.o_radios.length - 1)

/-- What one computation of the state does when the metadata script is run for a channel: the
time of the next one, and the audio uri if MPD was given it. -/
structure MetaScriptRun where
  nextMetaScriptExecTime : Int := 0
  audioUri : Option String := none
  after : World

def maybeExecMetaScript (rd : OHRadio) (script : Option MetaScriptRun) : OHRadio :=
  match script with
  | none => rd
  | some run =>
      { rd with
        o_radios := rd.o_radios.modify rd.m_id fun radio =>
          { radio with
            nextMetaScriptExecTime := run.nextMetaScriptExecTime
            currentAudioUri := run.audioUri.getD radio.currentAudioUri } }

section Uses

variable (rd : OHRadio)

/-- The indexing in `setId`, when there is a state to memorize the channel in. -/
def memorizeUses (g_state : Bool) : List Nat := if g_state then [rd.m_id] else []

/-- The indexing in `setPlaying`. -/
def setPlayingUses : List Nat := if rd.m_id ≥ rd.o_radios.length then [] else [rd.m_id]

/-- The indexing in `metaForId`, of any id. -/
def metaForIdUses (id : Nat) : List Nat := if id ≥ rd.o_radios.length then [] else [id]

/-- The indexing in `makestate`. -/
def makestateUses : List Nat :=
  if rd.m_active then
    if rd.m_id ≥ rd.o_radios.length then [] else rd.m_id :: rd.metaForIdUses rd.m_id
  else []

end Uses

end OHRadio

/-- The device with the details of the channels, and the channel in the state of the program. -/
structure RadioSystem (cfg : SourceConfig) where
  dev : Device cfg
  details : RadioDetails := {}
  sturl : Option String := none

/-- The actions of the services, and the computations of the state of the radio. -/
inductive RadioAct
  | source (act : SourceAct)
  | makestate (env : RadioStateEnv) (script : Option OHRadio.MetaScriptRun)

/-- The result of an action, and the values of `m_id` with which it has indexed `o_radios`. -/
structure RadioOut where
  code : UpnpCode
  uses : List Nat

namespace RadioSystem

variable {cfg : SourceConfig} (help : InfoHelp) (g_state : Bool)

/-- The part of an action in which `o_radios` is indexed. `after` is the device after it. -/
def uses (dev after : Device cfg) (code : UpnpCode) : SourceAct → List Nat
  | .radio .play env => (dev.wakeRadio help.toSourceHelp env.switch).ohrd.setPlayingUses
  | .radio (.setId _) _ => if code = .success then after.ohrd.memorizeUses g_state else []
  | _ => []

/-- The channel which `setId` memorizes, if there is one of this id. -/
def memorize (sturl : Option String) (after : Device cfg) (code : UpnpCode) :
    SourceAct → Option String
  | .radio (.setId _) _ =>
      if code = .success ∧ g_state = true then
        (after.ohrd.o_radios[after.ohrd.m_id]?).map OHRadio.reference
      else sturl
  | _ => sturl

def step (s : RadioSystem cfg) : RadioAct → Option (RadioSystem cfg × RadioOut)
  | .source act =>
      (s.dev.step help.toSourceHelp act).map fun (after, code) =>
        ({ s with dev := after, sturl := memorize g_state s.sturl after code act },
          { code := code, uses := uses help g_state s.dev after code act })
  | .makestate env script =>
      let rd := s.dev.ohrd
      let (_, details, told) := rd.makestate help s.details s.dev.world.cli.m_stat env
      let script := if told.isSome then script else none
      let dev := { s.dev with ohrd := rd.maybeExecMetaScript script }
      let dev := (script.map fun run => dev.setWorld run.after).getD dev
      some ({ s with dev := dev, details := details },
        { code := .success, uses := rd.makestateUses })

/-- Every use of the id is in the bounds of the array, and `SetId` accepts the ids which
`IdArray` gives and no others. -/
structure ValidIds (s : RadioSystem cfg) (act : RadioAct) (t : RadioSystem cfg) (out : RadioOut) :
    Prop where
  inside : ∀ id ∈ out.uses, id < t.dev.ohrd.o_radios.length
  accepted : ∀ value env, act = .source (.radio (.setId value) env) →
    (out.code = .success ↔ ∃ id ∈ s.dev.ohrd.ids, value = some (id : Int))

/-- The action is no `SetId` of the number of channels, the one which is not a channel included. -/
def NotPastLast (s : RadioSystem cfg) (act : RadioAct) (_ : RadioSystem cfg) (_ : RadioOut) :
    Prop :=
  ∀ value env, act = .source (.radio (.setId value) env) →
    value ≠ some (s.dev.ohrd.o_radios.length : Int)

end RadioSystem

/-- The current channel and the number of channels stay. -/
def SameChannel (rd rd' : OHRadio) : Prop :=
  rd'.m_id = rd.m_id ∧ rd'.o_radios.length = rd.o_radios.length

theorem SameChannel.refl (rd : OHRadio) : SameChannel rd rd := ⟨rfl, rfl⟩

theorem SameChannel.trans {rd rd' rd'' : OHRadio} (first : SameChannel rd rd')
    (second : SameChannel rd' rd'') : SameChannel rd rd'' :=
  ⟨second.1.trans first.1, second.2.trans first.2⟩

namespace OHRadio

theorem sameChannel_setActive (rd : OHRadio) (w : World) (onoff : Bool) (env : RadioSwitchEnv) :
    SameChannel rd (rd.setActive w onoff env).1 := by
  unfold setActive
  cases onoff with
  | true =>
      rw [if_pos rfl]
      split <;> exact ⟨rfl, rfl⟩
  | false => exact ⟨rfl, rfl⟩

theorem sameChannel_setPlaying (rd : OHRadio) (w : World) (env : RadioPlayEnv) :
    SameChannel rd (rd.setPlaying w env).2.1 := by
  unfold setPlaying
  split
  · exact .refl rd
  · dsimp only
    split
    · exact ⟨rfl, List.length_set⟩
    · split
      · apply And.intro rfl
        simp only [List.length_set]
      · split
        · exact ⟨rfl, List.length_set⟩
        · split <;> exact ⟨rfl, List.length_set⟩

theorem sameChannel_maybeExecMetaScript (rd : OHRadio) (script : Option MetaScriptRun) :
    SameChannel rd (rd.maybeExecMetaScript script) := by
  cases script with
  | none => exact .refl rd
  | some run => exact ⟨rfl, List.length_modify _ _ _⟩

/-- The array never gets shorter, and the first channel is always there. -/
theorem setChannel_spec (rd : OHRadio) (w : World) (args : Option (String × UpSong))
    (env : CmdEnv) :
    ((rd.setChannel w args env).2.1.m_id = rd.m_id ∨ (rd.setChannel w args env).2.1.m_id = 0) ∧
      (rd.setChannel w args env).2.1.o_radios.length = rd.o_radios.length := by
  cases args with
  | none => exact ⟨.inl rfl, rfl⟩
  | some args => exact ⟨.inr rfl, List.length_modify _ _ _⟩

/-- The ids which `setId` accepts. -/
theorem setId_spec (rd : OHRadio) (w : World) (value : Option Int) (env : CmdEnv) :
    (rd.setId w value env).2.1.o_radios.length = rd.o_radios.length ∧
      if (rd.setId w value env).1 = .success then
        ∃ id : Int, value = some id ∧ 0 < id ∧ id ≤ rd.o_radios.length ∧
          (rd.setId w value env).2.1.m_id = id.toNat
      else (rd.setId w value env).2.1.m_id = rd.m_id ∧
        ∀ id : Int, value = some id → id ≤ 0 ∨ id > rd.o_radios.length := by
  cases value with
  | none => exact ⟨rfl, rfl, fun id none_ => by cases none_⟩
  | some id =>
      by_cases refused : id ≤ 0 ∨ id > rd.o_radios.length
      · have same : rd.setId w (some id) env = (.internalError, rd, w) := if_pos refused
        rw [same]
        refine ⟨rfl, rfl, ?_⟩
        intro other given
        cases given
        exact refused
      · have done : rd.setId w (some id) env =
            (.success, { (rd.iStop w env).2.1 with m_id := id.toNat }, (rd.iStop w env).2.2) :=
          if_neg refused
        rw [done]
        refine ⟨rfl, id, rfl, by omega, by omega, rfl⟩

theorem mem_ids_iff (rd : OHRadio) (id : Nat) :
    id ∈ rd.ids ↔ 0 < id ∧ id < rd.o_radios.length := by
  rw [ids, List.mem_range'_1]
  omega

/-- The array of ids encodes these numbers. -/
theorem makeIdArray_eq (help : InfoHelp) (rd : OHRadio) :
    rd.makeIdArray help = help.toPlaylistHelp.base64_encode (rd.ids.flatMap fun val =>
      [UInt8.ofNat (val / 2 ^ 24), UInt8.ofNat (val / 2 ^ 16), UInt8.ofNat (val / 2 ^ 8),
        UInt8.ofNat val]) := rfl

theorem new_valid (channels : List RadioMeta) (sturl : Option String) :
    (new channels sturl).m_id < (new channels sturl).o_radios.length := by
  unfold new
  dsimp only
  cases found : sturl.bind fun refstr =>
      ({ title := "Unknown radio" } :: channels : List RadioMeta).findIdx? fun radio =>
        reference radio = refstr with
  | none => exact Nat.zero_lt_succ _
  | some known =>
      obtain ⟨refstr, -, found⟩ := Option.bind_eq_some_iff.mp found
      obtain ⟨inside, -⟩ := List.findIdx?_eq_some_iff_getElem.mp found
      exact inside

/-- The functions which check the id use a valid one. -/
theorem lt_of_mem_setPlayingUses {rd : OHRadio} {id : Nat} (member : id ∈ rd.setPlayingUses) :
    id < rd.o_radios.length := by
  unfold setPlayingUses at member
  split at member
  · cases member
  · rw [List.mem_singleton.mp member]
    omega

theorem lt_of_mem_makestateUses {rd : OHRadio} {id : Nat} (member : id ∈ rd.makestateUses) :
    id < rd.o_radios.length := by
  unfold makestateUses metaForIdUses at member
  by_cases bad : rd.m_id ≥ rd.o_radios.length
  · simp [bad] at member
  · have same : id = rd.m_id := by
      simp only [if_neg bad] at member
      split at member
      · simpa using member
      · cases member
    omega

end OHRadio

namespace Device

variable {cfg : SourceConfig} (help : SourceHelp) (dev : Device cfg)

/-- The services other than the radio leave the channel, and so does a change of the source. -/
theorem sameChannel_deactivate (env : SwitchEnv) :
    SameChannel dev.ohrd (OHProduct.deactivate help dev env).2.ohrd := by
  unfold OHProduct.deactivate
  dsimp only
  split
  · exact .refl _
  · split
    · exact .refl _
    · split
      · exact OHRadio.sameChannel_setActive dev.ohrd dev.world false env.radioOff
      · split
        · exact .refl _
        · split
          · exact OHRadio.sameChannel_setActive dev.ohrd dev.world false env.radioOff
          · exact .refl _

theorem sameChannel_activate (new : Source) (env : SwitchEnv) :
    SameChannel dev.ohrd (OHProduct.activate help dev new env).2.ohrd := by
  unfold OHProduct.activate
  split
  · exact .refl _
  · split
    · exact .refl _
    · split
      · exact OHRadio.sameChannel_setActive dev.ohrd dev.world true env.radioOn
      · split
        · exact .refl _
        · split
          · exact OHRadio.sameChannel_setActive dev.ohrd (dev.startSender help "" 0 env).2.world
              true env.radioOn
          · exact .refl _

theorem sameChannel_setSource (sindex : Fin (OHProduct.sources cfg).length) (env : SwitchEnv) :
    SameChannel dev.ohrd (OHProduct.setSource help dev sindex env).2.ohrd := by
  unfold OHProduct.setSource
  have left := sameChannel_deactivate help dev env
  split
  · exact .refl _
  · split <;> rename_i ran <;> rw [ran] at left
    · exact left
    · exact left.trans (sameChannel_activate help _ _ env)

theorem sameChannel_iSetSourceIndexByName (name : String) (env : SwitchEnv) :
    SameChannel dev.ohrd (OHProduct.iSetSourceIndexByName help dev name env).2.ohrd := by
  unfold OHProduct.iSetSourceIndexByName
  split
  · apply sameChannel_setSource
  · exact .refl _

theorem sameChannel_setSourceIndex (value : Option Int) (env : SwitchEnv) :
    SameChannel dev.ohrd (OHProduct.setSourceIndex help dev value env).2.ohrd := by
  cases value with
  | none => exact .refl _
  | some sindex =>
      unfold OHProduct.setSourceIndex OHProduct.iSetSourceIndex
      dsimp only
      split
      · exact .refl _
      · apply sameChannel_setSource

theorem sameChannel_wakePlaylist (env : SwitchEnv) :
    SameChannel dev.ohrd (dev.wakePlaylist help env).ohrd := by
  unfold wakePlaylist
  split
  · exact .refl _
  · apply sameChannel_iSetSourceIndexByName

theorem sameChannel_wakeWithId (id : Int) (env : PlaylistCallEnv) :
    SameChannel dev.ohrd (dev.wakeWithId help id env).2.ohrd := by
  unfold wakeWithId
  split
  · exact .refl _
  · exact sameChannel_wakePlaylist help dev env.switch

theorem sameChannel_wakeRadio (env : SwitchEnv) :
    SameChannel dev.ohrd (dev.wakeRadio help env).ohrd := by
  unfold wakeRadio
  split
  · exact .refl _
  · apply sameChannel_iSetSourceIndexByName

theorem sameChannel_callPlaylist (env : PlaylistCallEnv) (call : PlaylistCall) :
    SameChannel dev.ohrd (dev.callPlaylist help env call).2.ohrd := by
  have woken := sameChannel_wakePlaylist help dev env.switch
  have wokenWithId (id : Int) := sameChannel_wakeWithId help dev id env
  cases call with
  | play => exact woken
  | seekId id =>
      cases id with
      | none => exact .refl _
      | some id =>
          have found := wokenWithId id
          unfold callPlaylist seekId
          dsimp only
          split <;> rename_i ran <;> rw [ran] at found <;> exact found
  | seekIndex pos => cases pos <;> exact woken
  | insert args =>
      cases args with
      | none => exact .refl _
      | some args =>
          obtain ⟨afterid, uri, metadata⟩ := args
          have found := wokenWithId afterid
          unfold callPlaylist insert
          dsimp only
          split
          · exact .refl _
          · split <;> rename_i ran <;> rw [ran] at found
            · exact found
            · unfold insertUri
              split
              · exact found
              · exact found.trans (sameChannel_wakePlaylist help _ env.switch)
  | deleteId id =>
      cases id with
      | none => exact .refl _
      | some id =>
          have found := wokenWithId id
          unfold callPlaylist deleteId
          dsimp only
          split <;> rename_i ran <;> rw [ran] at found <;> exact found
  | deleteAll => exact woken

theorem sameChannel_callReceiver (env : ReceiverCallEnv) (call : ReceiverCall) :
    SameChannel dev.ohrd (dev.callReceiver help env call).2.ohrd := by
  cases call with
  | play =>
      have woken : SameChannel dev.ohrd (dev.wakeReceiver help env.switch).ohrd := by
        unfold wakeReceiver
        split
        · exact .refl _
        · apply sameChannel_iSetSourceIndexByName
      exact woken
  | stop => exact sameChannel_iSetSourceIndexByName help _ _ env.switch
  | setSender args => cases args <;> exact .refl _

end Device

namespace RadioSystem

variable {cfg : SourceConfig} {help : InfoHelp} {g_state : Bool} {s t : RadioSystem cfg}
  {act : RadioAct} {out : RadioOut}

/-- The current channel is one of the array. -/
def Inv (s : RadioSystem cfg) : Prop := s.dev.ohrd.m_id < s.dev.ohrd.o_radios.length

theorem agree_of_other (other : ∀ value env, act ≠ .source (.radio (.setId value) env))
    (inside : ∀ id ∈ out.uses, id < t.dev.ohrd.o_radios.length) (kept : Inv t) :
    (ValidIds s act t out ↔ NotPastLast s act t out) ∧ (ValidIds s act t out → Inv t) := by
  refine ⟨iff_of_true ⟨inside, ?_⟩ ?_, fun _ => kept⟩
  · intro value env same
    exact absurd same (other value env)
  · intro value env same
    exact absurd same (other value env)

theorem inv_of_sameChannel (valid : Inv s) (same : SameChannel s.dev.ohrd t.dev.ohrd) : Inv t := by
  unfold Inv at valid ⊢
  rw [same.1, same.2]
  exact valid

theorem step_source {a : SourceAct} (taken : step help g_state s (.source a) = some (t, out)) :
    s.dev.step help.toSourceHelp a = some (t.dev, out.code) ∧
      out.uses = uses help g_state s.dev t.dev out.code a := by
  obtain ⟨⟨after, code⟩, ran, same⟩ := Option.map_eq_some_iff.mp taken
  cases same
  exact ⟨ran, rfl⟩

theorem step_radio {call : RadioCall} {env : RadioCallEnv} {dev after : Device cfg}
    {code : UpnpCode} (taken : dev.step help.toSourceHelp (.radio call env) = some (after, code)) :
    dev.callRadio help.toSourceHelp env call = (code, after) := by
  change (if cfg.ohrd then some (dev.callRadio help.toSourceHelp env call).swap else none) =
    some (after, code) at taken
  split at taken
  · rw [← Prod.swap_swap (dev.callRadio help.toSourceHelp env call), Option.some.inj taken]
    rfl
  · cases taken

/-- `SetId` of the number of channels is the only one which goes wrong. -/
theorem agree_setId (valid : Inv s) (value : Option Int) (env : RadioCallEnv)
    (taken : step help g_state s (.source (.radio (.setId value) env)) = some (t, out)) :
    (ValidIds s (.source (.radio (.setId value) env)) t out ↔
        NotPastLast s (.source (.radio (.setId value) env)) t out) ∧
      (ValidIds s (.source (.radio (.setId value) env)) t out → Inv t) := by
  obtain ⟨ran, used⟩ := step_source taken
  have called := step_radio ran
  obtain ⟨length, spec⟩ := s.dev.ohrd.setId_spec s.dev.world value env.cmd
  have code : out.code = (s.dev.ohrd.setId s.dev.world value env.cmd).1 :=
    (congrArg Prod.fst called).symm
  have ohrd : t.dev.ohrd = (s.dev.ohrd.setId s.dev.world value env.cmd).2.1 :=
    (congrArg (fun result => result.2.ohrd) called).symm
  rw [← code, ← ohrd] at spec
  rw [← ohrd] at length
  unfold Inv at valid ⊢
  by_cases success : out.code = .success
  · rw [if_pos success] at spec
    obtain ⟨id, rfl, positive, small, m_id⟩ := spec
    have mem_uses (i : Nat) (member : i ∈ out.uses) : i = id.toNat := by
      rw [used] at member
      simp only [uses, if_pos success, OHRadio.memorizeUses] at member
      split at member
      · rw [List.mem_singleton.mp member, m_id]
      · cases member
    have agree : ValidIds s (.source (.radio (.setId (some id)) env)) t out ↔
        NotPastLast s (.source (.radio (.setId (some id)) env)) t out := by
      constructor
      · rintro holds value env' same rfl
        cases same
        obtain ⟨i, member, same⟩ := (holds.accepted _ _ rfl).mp success
        cases same
        have inside := (s.dev.ohrd.mem_ids_iff _).mp member
        omega
      · intro guard
        have other : id ≠ s.dev.ohrd.o_radios.length := by
          rintro rfl
          exact guard _ _ rfl rfl
        refine ⟨?_, ?_⟩
        · intro i member
          rw [mem_uses i member, length]
          omega
        · intro value env' same
          cases same
          apply iff_of_true success
          refine ⟨id.toNat, (s.dev.ohrd.mem_ids_iff _).mpr (by omega), ?_⟩
          rw [Int.toNat_of_nonneg (by omega)]
    refine ⟨agree, fun holds => ?_⟩
    have other : id ≠ s.dev.ohrd.o_radios.length := by
      rintro rfl
      exact agree.mp holds _ _ rfl rfl
    rw [m_id, length]
    omega
  · rw [if_neg success] at spec
    have none_ : out.uses = [] := by
      rw [used]
      exact if_neg success
    have outside (id : Int) (given : value = some id) :
        id ≤ 0 ∨ id > s.dev.ohrd.o_radios.length := spec.2 id given
    refine ⟨iff_of_true ⟨?_, ?_⟩ ?_, fun _ => ?_⟩
    · rw [none_]
      intro i member
      cases member
    · intro value' env' same
      cases same
      apply iff_of_false success
      rintro ⟨id, member, given⟩
      have inside := (s.dev.ohrd.mem_ids_iff _).mp member
      have bounds := outside id given
      omega
    · intro value' env' same given
      cases same
      have bounds := outside _ given
      omega
    · rw [spec.1, length]
      exact valid

theorem step_makestate {env : RadioStateEnv} {script : Option OHRadio.MetaScriptRun}
    (taken : step help g_state s (.makestate env script) = some (t, out)) :
    SameChannel s.dev.ohrd t.dev.ohrd ∧ out.uses = s.dev.ohrd.makestateUses := by
  unfold step at taken
  dsimp only at taken
  generalize (if (s.dev.ohrd.makestate help s.details s.dev.world.cli.m_stat env).2.2.isSome
    then script else none) = run at taken
  have same := s.dev.ohrd.sameChannel_maybeExecMetaScript run
  cases run with
  | none =>
      cases taken
      exact ⟨same, rfl⟩
  | some run =>
      cases taken
      exact ⟨same, rfl⟩

theorem agree_step (valid : Inv s) (taken : step help g_state s act = some (t, out)) :
    (ValidIds s act t out ↔ NotPastLast s act t out) ∧ (ValidIds s act t out → Inv t) := by
  cases act with
  | makestate env script =>
      obtain ⟨same, used⟩ := step_makestate taken
      apply agree_of_other
      · rintro value env ⟨⟩
      · rw [used, same.2]
        intro id member
        exact OHRadio.lt_of_mem_makestateUses member
      · exact inv_of_sameChannel valid same
  | source a =>
      obtain ⟨ran, used⟩ := step_source taken
      -- the actions of the other services use no id
      have unused (same : SameChannel s.dev.ohrd t.dev.ohrd) (none_ : out.uses = [])
          (other : ∀ value env, a ≠ .radio (.setId value) env) :
          (ValidIds s (.source a) t out ↔ NotPastLast s (.source a) t out) ∧
            (ValidIds s (.source a) t out → Inv t) := by
        apply agree_of_other
        · rintro value env ⟨⟩
          exact other value env rfl
        · rw [none_]
          intro id member
          cases member
        · exact inv_of_sameChannel valid same
      have dev {after : UpnpCode × Device cfg}
          (made : s.dev.step help.toSourceHelp a = some after.swap) : t.dev = after.2 :=
        (congrArg Prod.fst (Option.some.inj (made.symm.trans ran))).symm
      cases a with
      | setSourceIndex value env =>
          apply unused _ used (by rintro value' env' ⟨⟩)
          rw [dev rfl]
          apply Device.sameChannel_setSourceIndex
      | setSourceIndexByName value env =>
          apply unused _ used (by rintro value' env' ⟨⟩)
          rw [dev rfl]
          cases value with
          | none => exact .refl _
          | some name => apply Device.sameChannel_iSetSourceIndexByName
      | playlist call env =>
          apply unused _ used (by rintro value' env' ⟨⟩)
          rw [dev rfl]
          apply Device.sameChannel_callPlaylist
      | receiver call env =>
          apply unused _ used (by rintro value' env' ⟨⟩)
          change (if cfg.ohrcv then
            some (s.dev.callReceiver help.toSourceHelp env call).swap else none) =
              some (t.dev, out.code) at ran
          split at ran
          · have made : (s.dev.callReceiver help.toSourceHelp env call).2 = t.dev :=
              congrArg Prod.fst (Option.some.inj ran)
            rw [← made]
            apply Device.sameChannel_callReceiver
          · cases ran
      | mpd which w =>
          apply unused _ used (by rintro value' env' ⟨⟩)
          rw [@dev (.success, { s.dev with mpds := s.dev.mpds.put w which }) rfl]
          exact .refl _
      | radio call env =>
          have called := step_radio ran
          have ohrd {result : UpnpCode × OHRadio × World} {from_ : Device cfg}
              (made : s.dev.callRadio help.toSourceHelp env call = from_.setOHRadio result) :
              t.dev.ohrd = result.2.1 :=
            (congrArg (fun called => called.2.ohrd) (made.symm.trans called)).symm
          cases call with
          | setId value => exact agree_setId valid value env taken
          | play =>
              have woken := s.dev.sameChannel_wakeRadio help.toSourceHelp env.switch
              have same : SameChannel s.dev.ohrd t.dev.ohrd := by
                rw [ohrd rfl]
                exact woken.trans (OHRadio.sameChannel_setPlaying _ _ env.play)
              apply agree_of_other
              · rintro value env' ⟨⟩
              · rw [used, same.2, ← woken.2]
                intro id member
                exact OHRadio.lt_of_mem_setPlayingUses member
              · exact inv_of_sameChannel valid same
          | pause =>
              apply unused _ used (by rintro value' env' ⟨⟩)
              rw [ohrd rfl]
              exact .refl _
          | stop =>
              apply unused _ used (by rintro value' env' ⟨⟩)
              rw [ohrd rfl]
              exact .refl _
          | setChannel args =>
              obtain ⟨m_id, length⟩ := s.dev.ohrd.setChannel_spec s.dev.world args env.cmd
              rw [← ohrd rfl] at m_id length
              apply agree_of_other
              · rintro value env' ⟨⟩
              · rw [used]
                intro id member
                cases member
              · unfold Inv at valid ⊢
                rw [length]
                omega

/-- From the start of the program, every use of the id is in the bounds and `SetId` accepts the
right ids, exactly as long as there is no `SetId` of the number of channels. -/
theorem ids_valid_iff (help : InfoHelp) (g_state : Bool) (dev : Device cfg)
    (channels : List RadioMeta) (details : RadioDetails) (sturl : Option String)
    (actions : List RadioAct) :
    let start : RadioSystem cfg :=
      { dev := { dev with ohrd := OHRadio.new channels sturl }, details := details, sturl := sturl }
    Machine.Along ValidIds (step help g_state) start actions ↔
      Machine.Along NotPastLast (step help g_state) start actions := by
  intro start
  have agree (s : RadioSystem cfg) (act : RadioAct) (t : RadioSystem cfg) (out : RadioOut)
      (valid : Inv s) (taken : step help g_state s act = some (t, out)) :=
    agree_step valid taken
  exact Machine.along_iff_of_invariant agree start actions (OHRadio.new_valid channels sturl)

/-- The radio list has one channel, whose id is 1: `SetId` of 2 succeeds and memorizes what is
behind the end of the array. -/
theorem past_last_not_valid :
    ¬ ∀ (cfg : SourceConfig) (help : InfoHelp) (g_state : Bool) (dev : Device cfg)
      (channels : List RadioMeta) (details : RadioDetails) (sturl : Option String)
      (actions : List RadioAct),
      Machine.Along ValidIds (step help g_state)
        { dev := { dev with ohrd := OHRadio.new channels sturl }
          details := details
          sturl := sturl } actions := by
  intro valid
  obtain ⟨⟨inside, -⟩, -⟩ := valid {} ⟨⟨.plain, id⟩, fun _ => none⟩ true {}
    [{ title := "a", uri := "http://host/a" }] {} none [.source (.radio (.setId (some 2)) {})]
  exact absurd (inside 2 List.mem_cons_self) (Nat.lt_irrefl 2)

end RadioSystem

end Upmpdcli
