import Upmpdcli.AVTransport
import Upmpdcli.Lib.Machine
import Upmpdcli.Lib.VarDelta
import Upmpdcli.Volume

set_option autoImplicit false

/- The LastChange events of AVTransport and RenderingControl. -/
namespace Upmpdcli

/-- What the variables of the two services are made of. -/
structure AvDevice where
  avt : AVTransport := {}
  w : World := {}
  ok : Bool := true
  radioPlaying : Bool := false
  ohcache : Option (List (String × String)) := none

def mapget (state : StateMap) (name : String) : String := VarMap.value "" state name

/-- The loop of `getEventData`: the elements of the event, if one is to be sent, and the state
which is then stored. The variables of `unevented` make no event of their own. -/
def lastChange (unevented : List String) (newstate state : StateMap) (all : Bool) :
    Option StateMap × StateMap :=
  let state := if all then [] else state
  let chgdata := newstate.filter fun entry => entry.2 ≠ mapget state entry.1
  let changefound := chgdata.any fun entry => entry.1 ∉ unevented
  if changefound then (some chgdata, newstate) else (none, state)

def UpMpd.flushvolume : Bool := true

namespace AVTransport

def getEventData (help : PlaylistHelp) (opts : AvtOptions) (d : AvDevice) (m_tpstate : StateMap)
    (all : Bool) : (Option StateMap × StateMap) × AvDevice :=
  let (newtpstate, avt) :=
    d.avt.tpstateMToU help opts d.w.cli.m_stat d.ok d.radioPlaying d.ohcache
  (lastChange ["RelativeTimePosition", "AbsoluteTimePosition"] newtpstate m_tpstate all,
    { d with avt })

end AVTransport

namespace RenderingControl

def getEventDataNoFlush (d : AvDevice) (m_rdstate : StateMap) (all : Bool) :
    Option StateMap × StateMap :=
  lastChange [] (rdstateMToU d.w) m_rdstate all

def getEventData (d : AvDevice) (m_rdstate : StateMap) (all : Bool) : Option StateMap × StateMap :=
  let _ := UpMpd.flushvolume
  getEventDataNoFlush d m_rdstate all

end RenderingControl

inductive LastChangeKind
  | avTransport
  | renderingControl
deriving DecidableEq

namespace LastChangeKind

def unevented : LastChangeKind → List String
  | avTransport => ["RelativeTimePosition", "AbsoluteTimePosition"]
  | renderingControl => []

variable (help : PlaylistHelp) (opts : AvtOptions)

def stateMToU (kind : LastChangeKind) (d : AvDevice) : StateMap × AvDevice :=
  match kind with
  | avTransport =>
      let (newtpstate, avt) :=
        d.avt.tpstateMToU help opts d.w.cli.m_stat d.ok d.radioPlaying d.ohcache
      (newtpstate, { d with avt })
  | renderingControl => (RenderingControl.rdstateMToU d.w, d)

/-- `getEventData` for a subscription, the same without the flush of the volume for an event. -/
def getEventData (kind : LastChangeKind) (d : AvDevice) (state : StateMap) (all : Bool) :
    (Option StateMap × StateMap) × AvDevice :=
  match kind with
  | avTransport => AVTransport.getEventData help opts d state all
  | renderingControl =>
      (if all then RenderingControl.getEventData d state all
        else RenderingControl.getEventDataNoFlush d state all, d)

theorem getEventData_eq (kind : LastChangeKind) (d : AvDevice) (state : StateMap) (all : Bool) :
    kind.getEventData help opts d state all =
      (lastChange kind.unevented (kind.stateMToU help opts d).1 state all,
        (kind.stateMToU help opts d).2) := by
  cases kind with
  | avTransport => rfl
  | renderingControl => cases all <;> rfl

/-- What `tpstateMToU` makes of the tracks and of MPD, once it has followed MPD. -/
def tpstate (avt : AVTransport) (mpds : MpdStatus) (ok : Bool) : StateMap :=
  let medium := if Smallut.beginswith avt.m_uri "http://" then "HDD" else "NETWORK"
  let duration (ms : Nat) (none : String) : String :=
    if AVTransport.isSong mpds then help.soap.upnpduration ms else none
  let nextMetadata :=
    if opts.ownQueue then avt.m_nextMetadata
    else if AVTransport.isSong mpds then UpSong.didlmake help.soap mpds.nextsong
    else ""
  [("TransportState", AVTransport.mpdsToTState mpds),
    ("CurrentTransportActions", AVTransport.mpdsToTActions mpds),
    ("TransportStatus", if ok then "OK" else "ERROR_OCCURRED"), ("TransportPlaySpeed", "1"),
    ("CurrentTrack", "1"), ("NumberOfTracks", "1"),
    ("CurrentMediaDuration", duration mpds.songlenms "00:00:00"),
    ("CurrentTrackDuration", duration mpds.songlenms "00:00:00"),
    ("CurrentTrackURI", avt.m_uri), ("AVTransportURI", avt.m_uri),
    ("AVTransportURIMetaData", avt.m_curMetadata), ("CurrentTrackMetaData", avt.m_curMetadata),
    ("RelativeTimePosition", duration mpds.songelapsedms "0:00:00"),
    ("AbsoluteTimePosition", duration mpds.songelapsedms "0:00:00"),
    ("NextAVTransportURI", avt.m_nextUri), ("NextAVTransportURIMetaData", nextMetadata),
    ("PlaybackStorageMedium", if AVTransport.isSong mpds then medium else "NONE"),
    ("PossiblePlaybackStorageMedia", "HDD,NETWORK"),
    ("RecordStorageMedium", "NOT_IMPLEMENTED"), ("RelativeCounterPosition", "0"),
    ("AbsoluteCounterPosition", "0"), ("CurrentPlayMode", AVTransport.mpdsToPlaymode mpds),
    ("PossibleRecordStorageMedia", "NOT_IMPLEMENTED"),
    ("RecordMediumWriteStatus", "NOT_IMPLEMENTED"),
    ("CurrentRecordQualityMode", "NOT_IMPLEMENTED"),
    ("PossibleRecordQualityModes", "NOT_IMPLEMENTED")]

/-- The values of the state variables as the device stands. -/
def current (kind : LastChangeKind) (d : AvDevice) : StateMap :=
  match kind with
  | avTransport => tpstate help opts d.avt d.w.cli.m_stat d.ok
  | renderingControl => RenderingControl.rdstateMToU d.w

/-- The names of the variables, which are always the same ones. -/
def names : LastChangeKind → List String
  | avTransport =>
      ["TransportState", "CurrentTransportActions", "TransportStatus", "TransportPlaySpeed",
        "CurrentTrack", "NumberOfTracks", "CurrentMediaDuration", "CurrentTrackDuration",
        "CurrentTrackURI", "AVTransportURI", "AVTransportURIMetaData", "CurrentTrackMetaData",
        "RelativeTimePosition", "AbsoluteTimePosition", "NextAVTransportURI",
        "NextAVTransportURIMetaData", "PlaybackStorageMedium", "PossiblePlaybackStorageMedia",
        "RecordStorageMedium", "RelativeCounterPosition", "AbsoluteCounterPosition",
        "CurrentPlayMode", "PossibleRecordStorageMedia", "RecordMediumWriteStatus",
        "CurrentRecordQualityMode", "PossibleRecordQualityModes"]
  | renderingControl => ["Volume", "Mute"]

/-- A variable which is never empty, and makes an event. -/
def solid : LastChangeKind → String
  | avTransport => "TransportPlaySpeed"
  | renderingControl => "Mute"

section Variables

variable {help opts} (kind : LastChangeKind) (d : AvDevice)

theorem stateMToU_eq :
    (kind.stateMToU help opts d).1 = kind.current help opts (kind.stateMToU help opts d).2 := by
  cases kind <;> rfl

theorem names_current : (kind.current help opts d).map Prod.fst = kind.names := by
  cases kind <;> rfl

theorem nodup_current : ((kind.current help opts d).map Prod.fst).Nodup := by
  rw [names_current]
  cases kind <;> decide

theorem lookup_current_eq_none {name : String}
    (missing : (kind.current help opts d).lookup name = none) : name ∉ kind.names := by
  rw [← names_current kind d]
  intro member
  obtain ⟨entry, there, rfl⟩ := List.mem_map.mp member
  rw [VarMap.lookup_of_mem (nodup_current kind d) there] at missing
  cases missing

theorem flag_ne_empty (b : Bool) : flag b ≠ "" := by cases b <;> decide

variable (help opts) in
theorem solid_mem : ∃ content, (kind.solid, content) ∈ kind.current help opts d ∧
    content ≠ "" ∧ kind.solid ∉ kind.unevented := by
  cases kind with
  | avTransport => exact ⟨"1", by simp [current, tpstate, solid], by decide, by decide⟩
  | renderingControl =>
      exact ⟨_, List.mem_cons_of_mem _ List.mem_cons_self, flag_ne_empty _, by decide⟩

end Variables

end LastChangeKind

section Event

variable {unevented : List String} {newstate state : StateMap}

/-- An event is sent and the state stored, or nothing with an event of its own has changed. -/
theorem lastChange_cases (unevented : List String) (newstate state : StateMap) :
    lastChange unevented newstate state false =
        (some (VarMap.changes "" state newstate), newstate) ∨
      lastChange unevented newstate state false = (none, state) ∧
        ∀ entry ∈ VarMap.changes "" state newstate, ¬ entry.1 ∉ unevented := by
  by_cases found : (VarMap.changes "" state newstate).any fun entry => entry.1 ∉ unevented
  · exact .inl (if_pos found)
  · refine .inr ⟨if_neg found, fun entry member loud => found ?_⟩
    exact List.any_eq_true.mpr ⟨entry, member, decide_eq_true loud⟩

/-- A subscription is told everything, unless there is nothing to tell. -/
theorem lastChange_all {name content : String} (member : (name, content) ∈ newstate)
    (some_content : content ≠ "") (loud : name ∉ unevented) (state : StateMap) :
    lastChange unevented newstate state true =
      (some (VarMap.changes "" [] newstate), newstate) := by
  refine if_pos (List.any_eq_true.mpr ⟨(name, content), ?_, decide_eq_true loud⟩)
  exact List.mem_filter.mpr ⟨member, decide_eq_true some_content⟩

end Event

/-- One of the services, the device it is about, and what each of its subscribers knows. -/
structure LastChangeSystem where
  device : AvDevice
  state : StateMap := []
  subscribers : List StateMap := []

namespace LastChangeSystem

section Model

variable (help : PlaylistHelp) (opts : AvtOptions) (kind : LastChangeKind)

/-- `notifyEvent` sends the elements to all the subscribers. -/
def onMpdEvent (s : LastChangeSystem) : LastChangeSystem :=
  let ((event, state), device) := kind.getEventData help opts s.device s.state false
  match event with
  | none => { s with device, state }
  | some chgdata =>
      { device, state, subscribers := s.subscribers.map (VarMap.overlay · chgdata) }

/-- The library asks for everything and sends it to the newcomer, who knows nothing. -/
def subscribe (s : LastChangeSystem) : LastChangeSystem :=
  let ((event, state), device) := kind.getEventData help opts s.device s.state true
  { device, state, subscribers := VarMap.overlay [] (event.getD []) :: s.subscribers }

inductive Action
  | change (device : AvDevice)
  | onMpdEvent
  | subscribe

def step (s : LastChangeSystem) : Action → Option (LastChangeSystem × Unit)
  | .change device => some ({ s with device }, ())
  | .onMpdEvent => some (s.onMpdEvent help opts kind, ())
  | .subscribe => some (s.subscribe help opts kind, ())

/-- The variables with an event of their own have the same values in both maps. -/
def Same (left right : StateMap) : Prop := VarMap.Agree "" (· ∉ kind.unevented) left right

/-- There is no subscriber yet, or no variable has changed since the last event. -/
def Quiet (s : LastChangeSystem) : Prop :=
  s.subscribers = [] ∨ Same kind s.state (kind.stateMToU help opts s.device).1

def QuietAt (s : LastChangeSystem) (action : Action) (_ : LastChangeSystem) (_ : Unit) : Prop :=
  action = .subscribe → s.Quiet help opts kind

/-- The stored state is what every subscriber has, and has the variables of the service. -/
structure Replicated (s : LastChangeSystem) : Prop where
  replicas : ∀ replica ∈ s.subscribers, Same kind replica s.state
  names : ∀ name, name ∉ kind.names → s.state.lookup name = none

/-- The stored state is up to date. -/
def Current (s : LastChangeSystem) : Prop := Same kind s.state (kind.current help opts s.device)

end Model

variable {help : PlaylistHelp} {opts : AvtOptions} {kind : LastChangeKind} {s t : LastChangeSystem}

/-- What the device is asked for in a step, and how it stands afterwards. -/
theorem subscribe_eq (help : PlaylistHelp) (opts : AvtOptions) (kind : LastChangeKind)
    (s : LastChangeSystem) :
    s.subscribe help opts kind =
      { device := (kind.stateMToU help opts s.device).2
        state := (kind.stateMToU help opts s.device).1
        subscribers :=
          VarMap.overlay [] (VarMap.changes "" [] (kind.stateMToU help opts s.device).1) ::
            s.subscribers } := by
  obtain ⟨content, member, some_content, loud⟩ :=
    kind.solid_mem help opts (kind.stateMToU help opts s.device).2
  rw [← kind.stateMToU_eq] at member
  unfold subscribe
  rw [kind.getEventData_eq, lastChange_all member some_content loud]
  rfl

variable (help opts) in
theorem not_names (old : ∀ name, name ∉ kind.names → s.state.lookup name = none) (d : AvDevice)
    (name : String) (missing : (kind.stateMToU help opts d).1.lookup name = none) :
    s.state.lookup name = none := by
  rw [kind.stateMToU_eq] at missing
  exact old name (kind.lookup_current_eq_none _ missing)

theorem names_stateMToU (d : AvDevice) (name : String) (absent : name ∉ kind.names) :
    (kind.stateMToU help opts d).1.lookup name = none := by
  rw [kind.stateMToU_eq]
  exact VarMap.lookup_eq_none_of_not_mem (by rw [kind.names_current]; exact absent)

/-- An event tells the subscribers what has changed, and leaves them alone when that is nothing
with an event of its own. -/
theorem Replicated.onMpdEvent (replicated : Replicated kind s) :
    Replicated kind (s.onMpdEvent help opts kind) ∧
      Current help opts kind (s.onMpdEvent help opts kind) := by
  have stable := not_names help opts replicated.names s.device
  unfold LastChangeSystem.onMpdEvent Current
  rw [kind.getEventData_eq]
  rcases lastChange_cases kind.unevented (kind.stateMToU help opts s.device).1 s.state with
    sent | ⟨quiet, silent⟩
  · rw [sent]
    refine ⟨⟨?_, names_stateMToU s.device⟩, ?_⟩
    · intro replica member
      obtain ⟨before, subscribed, rfl⟩ := List.mem_map.mp member
      refine VarMap.agree_overlay_changes stable ?_ (replicated.replicas before subscribed)
      rw [kind.stateMToU_eq]
      exact kind.nodup_current _
    · rw [← kind.stateMToU_eq]
      exact VarMap.Agree.refl _
  · rw [quiet]
    refine ⟨⟨replicated.replicas, replicated.names⟩, ?_⟩
    rw [← kind.stateMToU_eq]
    exact VarMap.agree_of_changes stable silent

theorem Replicated.subscribe (replicated : Replicated kind s) (quiet : s.Quiet help opts kind) :
    Replicated kind (s.subscribe help opts kind) := by
  rw [subscribe_eq]
  refine ⟨?_, names_stateMToU s.device⟩
  intro replica member
  rcases List.mem_cons.mp member with rfl | old
  · refine VarMap.agree_overlay_changes (fun _ _ => rfl) ?_ (VarMap.Agree.refl [])
    rw [kind.stateMToU_eq]
    exact kind.nodup_current _
  · rcases quiet with none | same
    · have old : replica ∈ s.subscribers := old
      rw [none] at old
      cases old
    · exact (replicated.replicas replica old).trans same

theorem current_subscribe (s : LastChangeSystem) :
    Current help opts kind (s.subscribe help opts kind) := by
  unfold Current
  rw [subscribe_eq, ← kind.stateMToU_eq]
  exact VarMap.Agree.refl _

theorem Replicated.step {action : Action} {out : Unit} (replicated : Replicated kind s)
    (quiet : QuietAt help opts kind s action t out)
    (taken : LastChangeSystem.step help opts kind s action = some (t, out)) :
    Replicated kind t ∧ ((∀ device, action ≠ .change device) → Current help opts kind t) := by
  cases action with
  | change device =>
      cases taken
      exact ⟨⟨replicated.replicas, replicated.names⟩, fun other => (other device rfl).elim⟩
  | onMpdEvent =>
      cases taken
      exact ⟨replicated.onMpdEvent.1, fun _ => replicated.onMpdEvent.2⟩
  | subscribe =>
      cases taken
      exact ⟨replicated.subscribe (quiet rfl), fun _ => current_subscribe s⟩

/-- Every run in which the subscriptions are quiet: once an event has followed the last change,
all the subscribers have the values of the variables, also of those which have become empty. -/
theorem replicas_hold (help : PlaylistHelp) (opts : AvtOptions) (kind : LastChangeKind)
    (device : AvDevice) (before after : List Action) (last : LastChangeSystem) (outs : List Unit)
    (settled : ∀ action ∈ after, ∀ device, action ≠ .change device)
    (guarded : Machine.Along (QuietAt help opts kind) (step help opts kind) { device }
      (before ++ .onMpdEvent :: after))
    (ran : Machine.run (step help opts kind) { device } (before ++ .onMpdEvent :: after) =
      some (last, outs)) :
    ∀ replica ∈ last.subscribers, ∀ name ∉ kind.unevented,
      mapget replica name = mapget (kind.current help opts last.device) name := by
  obtain ⟨middle, _, _, ran_before, later, -⟩ := (Machine.run_append_iff _ _ _ _ _).mp ran
  obtain ⟨guarded_before, guarded_later⟩ := Machine.along_append_of_run guarded ran_before
  have preserve (s : LastChangeSystem) (action : Action) (t : LastChangeSystem) (out : Unit)
      (replicated : Replicated kind s) (quiet : QuietAt help opts kind s action t out)
      (taken : step help opts kind s action = some (t, out)) : Replicated kind t :=
    (replicated.step quiet taken).1
  have start : Replicated kind { device } :=
    ⟨fun replica member => absurd member List.not_mem_nil, fun _ _ => rfl⟩
  have replicated : Replicated kind middle :=
    Machine.invariant_of_run preserve _ middle _ _ start guarded_before ran_before
  obtain ⟨next, _, tail, taken, rest, -⟩ := (Machine.run_cons_iff _ _ _ _ _).mp later
  obtain ⟨quiet, guarded_after⟩ := (Machine.along_cons_of_step taken).mp guarded_later
  obtain ⟨begun, current⟩ := replicated.step quiet taken
  have keep (s : LastChangeSystem) (action : Action) (t : LastChangeSystem) (out : Unit)
      (held : Replicated kind s ∧ Current help opts kind s)
      (allowed : QuietAt help opts kind s action t out ∧ ∀ device, action ≠ .change device)
      (taken : step help opts kind s action = some (t, out)) :
      Replicated kind t ∧ Current help opts kind t :=
    ⟨(held.1.step allowed.1 taken).1, (held.1.step allowed.1 taken).2 allowed.2⟩
  have done := Machine.invariant_of_run keep next last after tail
    ⟨begun, current fun _ other => by cases other⟩
    (Machine.along_and_of_forall next after settled guarded_after) rest
  intro replica member name evented
  exact (done.1.replicas replica member name evented).trans (done.2 name evented)

/-- A device with a volume. -/
def deviceAt (volume : Int) : AvDevice := { w := { cli := { m_stat := { volume } } } }

/-- A change, an event, and a second subscriber who comes after it. -/
theorem replicas_hold_two_subscribers :
    ∃ last outs, Machine.run (step .plain {} .renderingControl) { device := deviceAt 10 }
        ([.subscribe, .change (deviceAt 0)] ++ .onMpdEvent :: [.subscribe]) = some (last, outs) ∧
      last.subscribers.length = 2 ∧
      ∀ replica ∈ last.subscribers, ∀ name ∉ LastChangeKind.renderingControl.unevented,
        mapget replica name =
          mapget (LastChangeKind.renderingControl.current .plain {} last.device) name := by
  refine ⟨_, _, rfl, rfl, ?_⟩
  refine replicas_hold .plain {} .renderingControl (deviceAt 10) [.subscribe, .change (deviceAt 0)]
    [.subscribe] _ _ ?_ ?_ rfl
  · rintro action member device rfl
    cases List.mem_singleton.mp member
  · refine (Machine.along_cons_of_step rfl).mpr ⟨fun _ => .inl rfl, ?_⟩
    refine (Machine.along_cons_of_step rfl).mpr ⟨fun other => (by cases other), ?_⟩
    refine (Machine.along_cons_of_step rfl).mpr ⟨fun other => (by cases other), ?_⟩
    exact (Machine.along_cons_of_step rfl).mpr ⟨fun _ => .inr (VarMap.Agree.refl _), trivial⟩

/-- A subscription between a change and the event: the first subscriber never gets the
change. -/
theorem subscription_hides_change :
    ¬ ∀ (help : PlaylistHelp) (opts : AvtOptions) (kind : LastChangeKind) (device : AvDevice)
      (before after : List Action) (last : LastChangeSystem) (outs : List Unit),
      (∀ action ∈ after, ∀ device, action ≠ .change device) →
        Machine.run (step help opts kind) { device } (before ++ .onMpdEvent :: after) =
            some (last, outs) →
          ∀ replica ∈ last.subscribers, ∀ name ∉ kind.unevented,
            mapget replica name = mapget (kind.current help opts last.device) name := by
  intro hold
  have same := hold .plain {} .renderingControl (deviceAt 10)
    [.subscribe, .change (deviceAt 20), .subscribe] [] _ _ (by simp) rfl
    [("Volume", "10"), ("Mute", "0")] (List.mem_cons_of_mem _ List.mem_cons_self) "Volume"
    List.not_mem_nil
  exact absurd same (by decide)

end LastChangeSystem

end Upmpdcli
