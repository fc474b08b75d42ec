import Upmpdcli.Lib.Machine
import Upmpdcli.Lib.VarMap

set_option autoImplicit false

namespace Upmpdcli

abbrev StateMap := List (String × String)

/-- `diffmaps`, the loop over the entries of `newer`. -/
def diffmaps (old : StateMap) : StateMap → StateMap
  | [] => []
  | (name, value) :: newer =>
      match old.lookup name with
      | none => (name, value) :: diffmaps old newer
      | some before =>
          if before = value then diffmaps old newer else (name, value) :: diffmaps old newer

theorem diffmaps_eq_diff (old newer : StateMap) : diffmaps old newer = VarMap.diff old newer := by
  induction newer with
  | nil => rfl
  | cons entry newer ih =>
      obtain ⟨name, value⟩ := entry
      rw [diffmaps, ih, VarMap.diff, VarMap.diff, List.filter_cons]
      cases found : old.lookup name with
      | none => simp
      | some before => by_cases same : before = value <;> simp [same]

def flag (b : Bool) : String := if b then "1" else "0"

/-- The OpenHome services. -/
inductive OHServiceKind
  | product
  | time
  | volume
  | playlist
  | radio
  | receiver
  | info
  | credentials
deriving DecidableEq

/-- The variables which the `makestate` of a service sets. They are always the same ones:
an inactive playlist gives the map it had when it was active with another
`TransportState`, and an inactive radio the same variables with other values. -/
def OHServiceKind.names : OHServiceKind → List String
  | .product =>
      ["ManufacturerName", "ManufacturerInfo", "ManufacturerUrl", "ManufacturerImageUri",
        "ModelName", "ModelInfo", "ModelUrl", "ModelImageUri", "ProductRoom", "ProductName",
        "ProductInfo", "ProductUrl", "ProductImageUri", "Standby", "SourceCount", "SourceXml",
        "SourceIndex", "Attributes"]
  | .time => ["TrackCount", "Duration", "Seconds"]
  | .volume =>
      ["VolumeMax", "VolumeLimit", "VolumeUnity", "VolumeSteps", "VolumeMilliDbPerStep",
        "Balance", "BalanceMax", "Fade", "FadeMax", "Volume", "Mute"]
  | .playlist =>
      ["TransportState", "Repeat", "Shuffle", "IdArray", "Id", "TracksMax", "ProtocolInfo"]
  | .radio =>
      ["ChannelsMax", "Id", "IdArray", "ProtocolInfo", "TransportState", "Metadata", "Uri"]
  | .receiver => ["Uri", "Metadata", "TransportState", "ProtocolInfo"]
  | .info =>
      ["TrackCount", "DetailsCount", "MetatextCount", "Uri", "Metadata", "Metatext", "Duration",
        "BitRate", "BitDepth", "SampleRate", "Lossless", "CodecName"]
  | .credentials => ["Ids", "PublicKey", "SequenceNumber"]

theorem OHServiceKind.names_nodup (kind : OHServiceKind) : kind.names.Nodup := by
  cases kind <;> decide

/-- The map `makestate` makes when the variables have these values. -/
def OHServiceKind.makestate (kind : OHServiceKind) (value : String → String) : StateMap :=
  kind.names.map fun name => (name, value name)

/-- An `OHService`, what its variables are worth now, and what each of its subscribers
knows of them. -/
structure OHService where
  m_state : StateMap := []
  value : String → String
  subscribers : List StateMap := []

namespace OHService

def getEventData (kind : OHServiceKind) (s : OHService) (all : Bool) : OHService × StateMap :=
  let state := kind.makestate s.value
  let changed := if all then state else diffmaps s.m_state state
  ({ s with m_state := state }, changed)

/-- `notifyEvent`: the library sends the changes to all the subscribers. -/
def notifyEvent (s : OHService) (changed : StateMap) : OHService :=
  { s with subscribers := s.subscribers.map (VarMap.overlay · changed) }

def onEvent (kind : OHServiceKind) (s : OHService) : OHService :=
  let (s, changed) := s.getEventData kind false
  if changed.isEmpty then s else s.notifyEvent changed

/-- A subscription: the library asks for everything and sends it to the newcomer only. -/
def subscribe (kind : OHServiceKind) (s : OHService) : OHService :=
  let (s, state) := s.getEventData kind true
  { s with subscribers := state :: s.subscribers }

inductive Action
  | change (value : String → String)
  | onEvent
  | subscribe

def step (kind : OHServiceKind) (s : OHService) : Action → Option (OHService × Unit)
  | .change value => some ({ s with value := value }, ())
  | .onEvent => some (s.onEvent kind, ())
  | .subscribe => some (s.subscribe kind, ())

/-- Nobody misses anything when a subscription replaces the stored state: it is up to date,
or there is no subscriber yet. -/
def Quiet (kind : OHServiceKind) (s : OHService) : Prop :=
  s.subscribers = [] ∨ VarMap.Same s.m_state (kind.makestate s.value)

def QuietAt (kind : OHServiceKind) (s : OHService) (action : Action) (_ : OHService)
    (_ : Unit) : Prop :=
  action = .subscribe → s.Quiet kind

/-- The stored state is what every subscriber has, and has no other variable than the ones
of the service. -/
structure Replicated (kind : OHServiceKind) (s : OHService) : Prop where
  replicas : ∀ replica ∈ s.subscribers, VarMap.Same replica s.m_state
  names : ∀ name, name ∉ kind.names → s.m_state.lookup name = none

variable {kind : OHServiceKind} {s t : OHService}

theorem lookup_makestate_eq_none_iff (kind : OHServiceKind) (value : String → String)
    (name : String) : (kind.makestate value).lookup name = none ↔ name ∉ kind.names := by
  unfold OHServiceKind.makestate
  induction kind.names with
  | nil => simp
  | cons first rest ih =>
      by_cases same : name = first
      · simp [same]
      · simp [same, List.lookup_cons, beq_false_of_ne same, ih]

theorem nodup_makestate (kind : OHServiceKind) (value : String → String) :
    ((kind.makestate value).map Prod.fst).Nodup := by
  have names : (kind.makestate value).map Prod.fst = kind.names := by
    simp [OHServiceKind.makestate, Function.comp_def]
  rw [names]
  exact kind.names_nodup

/-- An event brings the stored state up to date and sends every subscriber the difference,
which may be nothing. -/
theorem onEvent_eq (kind : OHServiceKind) (s : OHService) :
    s.onEvent kind =
      { s with
        m_state := kind.makestate s.value
        subscribers :=
          s.subscribers.map (VarMap.overlay · (VarMap.diff s.m_state (kind.makestate s.value))) } := by
  simp only [onEvent, getEventData, Bool.false_eq_true, ↓reduceIte, diffmaps_eq_diff, notifyEvent]
  split
  · rename_i empty
    rw [List.isEmpty_iff.mp empty]
    simp [VarMap.overlay]
  · rfl

theorem Replicated.onEvent (replicated : Replicated kind s) : Replicated kind (s.onEvent kind) := by
  rw [onEvent_eq]
  refine ⟨?_, fun name absent => (lookup_makestate_eq_none_iff kind s.value name).mpr absent⟩
  intro replica member
  obtain ⟨before, subscribed, rfl⟩ := List.mem_map.mp member
  refine VarMap.overlay_diff_same (nodup_makestate kind s.value) (fun name absent => ?_)
    (replicated.replicas before subscribed)
  exact replicated.names name ((lookup_makestate_eq_none_iff kind s.value name).mp absent)

theorem Replicated.subscribe (replicated : Replicated kind s) (quiet : s.Quiet kind) :
    Replicated kind (s.subscribe kind) := by
  refine ⟨?_, fun name absent => (lookup_makestate_eq_none_iff kind s.value name).mpr absent⟩
  intro replica member
  rcases List.mem_cons.mp member with rfl | old
  · exact VarMap.Same.refl _
  · rcases quiet with none | current
    · have old : replica ∈ s.subscribers := old
      rw [none] at old
      cases old
    · exact (replicated.replicas replica old).trans current

theorem Replicated.step {action : Action} {out : Unit} (replicated : Replicated kind s)
    (quiet : QuietAt kind s action t out) (taken : OHService.step kind s action = some (t, out)) :
    Replicated kind t := by
  cases action with
  | change value =>
      cases taken
      exact ⟨replicated.replicas, replicated.names⟩
  | onEvent =>
      cases taken
      exact replicated.onEvent
  | subscribe =>
      cases taken
      exact replicated.subscribe (quiet rfl)

/-- The stored state is up to date after every step but a change. -/
theorem current_of_step {action : Action} {out : Unit}
    (kept : ∀ value, action ≠ .change value)
    (taken : OHService.step kind s action = some (t, out)) :
    t.m_state = kind.makestate t.value := by
  cases action with
  | change value => exact (kept value rfl).elim
  | onEvent =>
      cases taken
      rw [onEvent_eq]
  | subscribe =>
      cases taken
      rfl

/-- Every run in which the subscriptions are quiet: once an event has followed the last
change, all the subscribers have the current map. -/
theorem replicas_current (kind : OHServiceKind) (value : String → String)
    (before after : List Action) (last : OHService) (outs : List Unit)
    (settled : ∀ action ∈ after, ∀ value, action ≠ .change value)
    (guarded : Machine.Along (QuietAt kind) (OHService.step kind) { value } (before ++ .onEvent :: after))
    (ran : Machine.run (OHService.step kind) { value } (before ++ .onEvent :: after) =
      some (last, outs)) :
    ∀ replica ∈ last.subscribers, VarMap.Same replica (kind.makestate last.value) := by
  have preserve (s : OHService) (action : Action) (t : OHService) (out : Unit)
      (replicated : Replicated kind s) (quiet : QuietAt kind s action t out)
      (taken : OHService.step kind s action = some (t, out)) : Replicated kind t :=
    replicated.step quiet taken
  have start : Replicated kind { value } := ⟨by simp, by simp⟩
  have replicated := Machine.invariant_of_run preserve _ last _ outs start guarded ran
  obtain ⟨middle, _, _, -, later, -⟩ := (Machine.run_append_iff _ _ _ _ _).mp ran
  obtain ⟨next, _, tail, taken, rest, -⟩ := (Machine.run_cons_iff _ _ _ _ _).mp later
  have current : last.m_state = kind.makestate last.value := by
    have keep (s : OHService) (action : Action) (t : OHService) (out : Unit)
        (_ : s.m_state = kind.makestate s.value)
        (kept : True ∧ ∀ value, action ≠ .change value)
        (taken : OHService.step kind s action = some (t, out)) :
        t.m_state = kind.makestate t.value :=
      current_of_step kept.2 taken
    have start : next.m_state = kind.makestate next.value :=
      current_of_step (fun _ other => by cases other) taken
    exact Machine.invariant_of_run keep next last after tail start
      (Machine.along_and_of_forall next after settled (Machine.along_true _ next after)) rest
  rw [← current]
  exact replicated.replicas

/-- Variables which are all empty but the volume. -/
def volumeOf (volume name : String) : String := if name = "Volume" then volume else ""

/-- A change, an event, and a second subscriber who comes after it. -/
theorem replicas_current_two_subscribers :
    ∃ last outs, Machine.run (step .volume) { value := volumeOf "10" }
        ([.subscribe, .change (volumeOf "20")] ++ .onEvent :: [.subscribe]) = some (last, outs) ∧
      last.subscribers.length = 2 ∧
      ∀ replica ∈ last.subscribers,
        VarMap.Same replica (OHServiceKind.makestate .volume last.value) := by
  refine ⟨_, _, rfl, rfl, ?_⟩
  refine replicas_current .volume (volumeOf "10") [.subscribe, .change (volumeOf "20")]
    [.subscribe] _ _ ?_ ?_ rfl
  · rintro action member value rfl
    cases List.mem_singleton.mp member
  · refine (Machine.along_cons_of_step rfl).mpr ⟨fun _ => .inl rfl, ?_⟩
    refine (Machine.along_cons_of_step rfl).mpr ⟨fun other => (by cases other), ?_⟩
    refine (Machine.along_cons_of_step rfl).mpr ⟨fun other => (by cases other), ?_⟩
    exact (Machine.along_cons_of_step rfl).mpr ⟨fun _ => .inr (VarMap.Same.refl _), trivial⟩

/-- A subscription between a change and the event: the first subscriber never gets the
change. -/
theorem subscription_loses_change :
    ¬ ∀ (kind : OHServiceKind) (value : String → String) (before after : List Action)
      (last : OHService) (outs : List Unit),
      (∀ action ∈ after, ∀ value, action ≠ .change value) →
        Machine.run (step kind) { value } (before ++ .onEvent :: after) = some (last, outs) →
          ∀ replica ∈ last.subscribers, VarMap.Same replica (kind.makestate last.value) := by
  intro current
  have same := current .volume (volumeOf "10") [.subscribe, .change (volumeOf "20"), .subscribe] []
    _ _ (by simp) rfl (OHServiceKind.makestate .volume (volumeOf "10"))
    (List.mem_cons_of_mem _ List.mem_cons_self)
  exact absurd (same "Volume") (by decide)

end OHService

end Upmpdcli
