import Upmpdcli.Lib.Machine
import Upmpdcli.OHReceiver

set_option autoImplicit false

/- The transport state of the Songcast receiver, which is whether it has a command object, and the
process which the object stands for. -/
namespace Upmpdcli

/-- What `startExec` comes to. A command which is not found makes it return a status, which is
no negative number. -/
inductive StartExec
  | failed
  | notFound
  | started
deriving DecidableEq

/-- What `iPlay` meets: the playlist service, the start of `sc2mpd`, and in the MPD play method
the line which it writes when it is connected, and MPD. -/
structure ReceiverPlayEnv where
  playlist : Bool := true
  start : StartExec := .started
  connected : Bool := true
  urlMap : Bool := true
  queued : Bool := true
  parsed : Bool := true
  inserted : Bool := true
  playId : Bool := true
deriving DecidableEq

/-- An `ExecCmd`. The child is there from its start until it is waited for. -/
structure ExecCmd where
  child : Option Unit := none
deriving DecidableEq

/-- The receiver, and its process: whether it has been started and not been seen to exit, and
whether it has exited. -/
structure Songcast where
  m_pm : PlayMethod := .mpd
  m_uri : String := ""
  m_metadata : String := ""
  m_active : Bool := false
  m_cmd : Option ExecCmd := none
  running : Bool := false
  exited : Bool := false
deriving DecidableEq

namespace Songcast

/-- `startExec`, of a new command object. -/
def startExec (rcv : Songcast) (start : StartExec) : Songcast :=
  match start with
  | .started => { rcv with m_cmd := some ⟨some ()⟩, running := true, exited := false }
  | _ => { rcv with m_cmd := some ⟨none⟩ }

/-- `zapChild`, and the command object is given up. -/
def zapChild (rcv : Songcast) : Songcast :=
  match rcv.m_cmd with
  | none => rcv
  | some _ => { rcv with m_cmd := none, running := false }

/-- `maybereap`: a child which is not there counts as one which has exited. -/
def maybereap (rcv : Songcast) (waitFails : Bool) : Songcast × Bool :=
  match rcv.m_cmd with
  | none => (rcv, false)
  | some cmd =>
      if cmd.child = none ∨ waitFails ∨ rcv.exited then
        ({ rcv with m_cmd := some ⟨none⟩, running := false }, true)
      else (rcv, false)

/-- The stop of MPD and the removal of the address from its queue change nothing here. -/
def iStop (rcv : Songcast) : Songcast := rcv.zapChild

def setActive (rcv : Songcast) (onoff : Bool) : Songcast :=
  let rcv := { rcv with m_active := onoff }
  if onoff then rcv else rcv.iStop

/-- Whether MPD plays what the process receives. Most failures leave the result of the start. -/
def mpdPlays (env : ReceiverPlayEnv) : Bool :=
  if env.start = .notFound ∨ ¬ env.connected ∨ ¬ env.urlMap then true
  else if ¬ env.queued ∧ (¬ env.parsed ∨ ¬ env.inserted) then true
  else env.playId

def iPlay (rcv : Songcast) (env : ReceiverPlayEnv) : Songcast × Bool :=
  if ¬ env.playlist ∨ rcv.m_uri = "" ∨ rcv.m_metadata = "" then (rcv, false)
  else
    let rcv := rcv.zapChild.startExec env.start
    let ok : Bool :=
      env.start ≠ .failed ∧ (rcv.m_pm = .mpd → mpdPlays env)
    if ok then (rcv, true) else (rcv.iStop, false)

def iSetSender (rcv : Songcast) (uri metadata : String) : Songcast :=
  if rcv.m_uri ≠ uri ∨ rcv.m_metadata ≠ metadata then
    let rcv := if rcv.m_cmd.isSome then rcv.iStop else rcv
    { rcv with m_uri := uri, m_metadata := metadata }
  else rcv

def transportState (rcv : Songcast) : String := if rcv.m_cmd.isSome then "Playing" else "Stopped"

/-- `makestate`, with the transport state. `mpdPlaying` says that MPD plays or is paused. -/
def makestate (rcv : Songcast) (mpdPlaying waitFails : Bool) : Songcast × String :=
  let rcv :=
    match rcv.m_pm with
    | .mpd => if rcv.m_cmd.isSome ∧ ¬ mpdPlaying then rcv.iStop else rcv
    | .alsa => (rcv.maybereap waitFails).1
  (rcv, rcv.transportState)

/-- What happens to the receiver. `Play`, `Stop` and `SetSender` are a source switch, one of the
functions, and a state computation; anything can come between these. -/
inductive Event
  | iPlay (env : ReceiverPlayEnv)
  | iStop
  | iSetSender (uri metadata : String)
  | setActive (onoff : Bool)
  | makestate (mpdPlaying waitFails : Bool)
  | transportState
  | exits

/-- A step, with the transport state if it is reported. -/
def step (rcv : Songcast) : Event → Option (Songcast × Option String)
  | .iPlay env => some ((rcv.iPlay env).1, none)
  | .iStop => some (rcv.iStop, none)
  | .iSetSender uri metadata => some (rcv.iSetSender uri metadata, none)
  | .setActive onoff => some (rcv.setActive onoff, none)
  | .makestate mpdPlaying waitFails =>
      some ((rcv.makestate mpdPlaying waitFails).1,
        some (rcv.makestate mpdPlaying waitFails).2)
  | .transportState => some (rcv, some rcv.transportState)
  | .exits => some ({ rcv with exited := true }, none)

/-- The state which is reported is the one of the process. -/
def StateLaw (_ : Songcast) (_ : Event) (rcv : Songcast) (reported : Option String) : Prop :=
  ∀ value, reported = some value → value = if rcv.running then "Playing" else "Stopped"

/-- The command is found when it is started, and in the ALSA play method a state is not computed
when the process has exited. -/
def Found (rcv : Songcast) (event : Event) (_ : Songcast) (_ : Option String) : Prop :=
  match event with
  | .iPlay env =>
      env.playlist = true → rcv.m_uri ≠ "" → rcv.m_metadata ≠ "" → env.start ≠ .notFound
  | .makestate _ waitFails =>
      rcv.m_pm = .alsa → rcv.m_cmd.isSome → waitFails = false ∧ rcv.exited = false
  | _ => True

/-- The command object is there just as long as its process. -/
def Tied (rcv : Songcast) : Prop :=
  (rcv.m_cmd = none ∧ rcv.running = false) ∨ (rcv.m_cmd = some ⟨some ()⟩ ∧ rcv.running = true)

variable {rcv next : Songcast} {event : Event} {reported : Option String}

theorem Tied.transportState (tied : rcv.Tied) :
    rcv.transportState = if rcv.running then "Playing" else "Stopped" := by
  rcases tied with ⟨none, not_running⟩ | ⟨some_cmd, running⟩
  · rw [Songcast.transportState, none, not_running]
    rfl
  · rw [Songcast.transportState, some_cmd, running]
    rfl

theorem Tied.zapChild (tied : rcv.Tied) :
    rcv.zapChild.m_cmd = none ∧ rcv.zapChild.running = false := by
  unfold Songcast.zapChild
  rcases tied with ⟨none, not_running⟩ | ⟨some_cmd, running⟩
  · rw [none]
    exact ⟨none, not_running⟩
  · rw [some_cmd]
    exact ⟨rfl, rfl⟩

theorem Tied.iStop (tied : rcv.Tied) : rcv.iStop.Tied := .inl tied.zapChild

theorem Tied.iPlay (tied : rcv.Tied) {env : ReceiverPlayEnv}
    (found : Found rcv (.iPlay env) next reported) : (rcv.iPlay env).1.Tied := by
  unfold Songcast.iPlay
  split
  · exact tied
  · rename_i ready
    simp only [not_or, not_not] at ready
    have zapped := tied.zapChild
    have there := found ready.1 ready.2.1 ready.2.2
    cases start : env.start with
    | failed =>
        dsimp only
        rw [if_neg (by simp)]
        exact .inl ⟨rfl, rfl⟩
    | notFound => exact absurd start there
    | started =>
        have tied' : (rcv.zapChild.startExec .started).Tied := .inr ⟨rfl, rfl⟩
        dsimp only
        split
        · exact tied'
        · exact tied'.iStop

theorem Tied.iSetSender (tied : rcv.Tied) (uri metadata : String) :
    (rcv.iSetSender uri metadata).Tied := by
  unfold Songcast.iSetSender
  split
  · dsimp only
    split
    · exact tied.iStop
    · exact tied
  · exact tied

theorem Tied.setActive (tied : rcv.Tied) (onoff : Bool) : (rcv.setActive onoff).Tied := by
  have tied' : ({ rcv with m_active := onoff } : Songcast).Tied := tied
  unfold Songcast.setActive
  cases onoff with
  | true => exact tied'
  | false => exact tied'.iStop

theorem Tied.makestate (tied : rcv.Tied) {mpdPlaying waitFails : Bool}
    (found : Found rcv (.makestate mpdPlaying waitFails) next reported) :
    (rcv.makestate mpdPlaying waitFails).1.Tied := by
  unfold Songcast.makestate
  cases pm : rcv.m_pm with
  | mpd =>
      dsimp only
      split
      · exact tied.iStop
      · exact tied
  | alsa =>
      dsimp only
      unfold maybereap
      rcases tied with ⟨none, not_running⟩ | ⟨some_cmd, running⟩
      · rw [none]
        exact .inl ⟨none, not_running⟩
      · obtain ⟨waits, alive⟩ := found pm (by rw [some_cmd]; rfl)
        rw [some_cmd]
        dsimp only
        rw [if_neg (by simp [waits, alive])]
        exact .inr ⟨some_cmd, running⟩

/-- One step. -/
theorem Tied.step (tied : rcv.Tied) (found : Found rcv event next reported)
    (taken : rcv.step event = some (next, reported)) :
    next.Tied ∧ StateLaw rcv event next reported := by
  cases event with
  | iPlay env =>
      cases taken
      exact ⟨tied.iPlay found, nofun⟩
  | iStop =>
      cases taken
      exact ⟨tied.iStop, nofun⟩
  | iSetSender uri metadata =>
      cases taken
      exact ⟨tied.iSetSender uri metadata, nofun⟩
  | setActive onoff =>
      cases taken
      exact ⟨tied.setActive onoff, nofun⟩
  | makestate mpdPlaying waitFails =>
      cases taken
      have tied' := tied.makestate found
      refine ⟨tied', ?_⟩
      rintro value ⟨⟩
      exact tied'.transportState
  | transportState =>
      cases taken
      refine ⟨tied, ?_⟩
      rintro value ⟨⟩
      exact tied.transportState
  | exits =>
      cases taken
      exact ⟨tied, nofun⟩

/-- In every run in which the command is found and no state is computed after the process has
exited in the ALSA play method, the state is the one of the process. -/
theorem stateLaw_of_found (pm : PlayMethod) (uri metadata : String) (events : List Event)
    (found : Machine.Along Found step { m_pm := pm, m_uri := uri, m_metadata := metadata } events) :
    Machine.Along StateLaw step { m_pm := pm, m_uri := uri, m_metadata := metadata } events := by
  have start : Tied { m_pm := pm, m_uri := uri, m_metadata := metadata } := .inl ⟨rfl, rfl⟩
  refine Machine.along_of_invariant ?_ _ events start found
  intro s event t reported tied met taken
  exact tied.step met taken

/-- A sender is played in the ALSA play method, and stopped. -/
theorem stateLaw_playStop :
    Machine.Along StateLaw step { m_pm := .alsa, m_uri := "ohz://sender", m_metadata := "<DIDL/>" }
      [.iPlay {}, .makestate true false, .iStop, .exits, .makestate true false] := by
  refine stateLaw_of_found .alsa "ohz://sender" "<DIDL/>" _ ?_
  refine (Machine.along_cons_of_step rfl).mpr ⟨fun _ _ _ => by decide, ?_⟩
  refine (Machine.along_cons_of_step rfl).mpr ⟨fun _ _ => ⟨rfl, rfl⟩, ?_⟩
  refine (Machine.along_cons_of_step rfl).mpr ⟨trivial, ?_⟩
  refine (Machine.along_cons_of_step rfl).mpr ⟨trivial, ?_⟩
  refine (Machine.along_cons_of_step rfl).mpr ⟨fun _ some_cmd => ?_, trivial⟩
  exact absurd some_cmd (by decide)

/-- The process exits by itself, and a state is computed. -/
theorem not_stateLaw_exits :
    ¬ ∀ (pm : PlayMethod) (uri metadata : String) (events : List Event),
      Machine.Along StateLaw step { m_pm := pm, m_uri := uri, m_metadata := metadata } events := by
  intro law
  have along := law .alsa "ohz://sender" "<DIDL/>" [.iPlay {}, .exits, .makestate true false]
  have last := ((Machine.along_cons_of_step rfl).mp ((Machine.along_cons_of_step rfl).mp along).2).2
  have told := ((Machine.along_cons_of_step rfl).mp last).1
  exact absurd (told "Playing" rfl) (by decide)

end Songcast

end Upmpdcli
