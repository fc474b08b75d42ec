import Upmpdcli.AVTransport
import Upmpdcli.MpdCliRetry

set_option autoImplicit false

/- The transport controls, which go by the status that was read last. -/
namespace Upmpdcli

/-- What becomes of the command of a control, and of the reading of the status behind it. What
other clients do to the queue comes between the calls. -/
structure ControlEnv where
  cmd : {env : CmdEnv // env.Alone}
  status : {env : StatusEnv // env.Alone}

def ControlEnv.play (env : ControlEnv) : PlayEnv := { cmd := env.cmd, status := env.status }

namespace AVTransport

def controlCode (ok : Bool) : UpnpCode := if ok then .success else .internalError

/-- `playcontrol`: 0 is Stop, 1 is Play and 2 is Pause. -/
def playcontrol (w : World) (what : Int32) (env : ControlEnv) : UpnpCode × World :=
  if what &&& ~~~0x3 ≠ 0 then (.invalidParam, w)
  else
    let (ok, w) :=
      match w.cli.m_stat.state with
      | .play =>
          if what = 0 then MpdCli.stop w env.cmd
          else if what = 1 then MpdCli.play w (-1) env.play
          else if what = 2 then MpdCli.togglePause w env.cmd
          else (true, w)
      | .pause =>
          if what = 0 then MpdCli.stop w env.cmd
          else if what = 1 then MpdCli.togglePause w env.cmd
          else (true, w)
      | .stop | .unk => if what = 1 then MpdCli.play w (-1) env.play else (true, w)
    (controlCode ok, w)

/-- `seqcontrol`: 0 is Next and 1 is Previous. -/
def seqcontrol (w : World) (what : Int32) (env : ControlEnv) : UpnpCode × World :=
  if what &&& ~~~0x1 ≠ 0 then (.invalidParam, w)
  else
    let (ok, w) :=
      if what = 0 then MpdCli.next w env.cmd
      else if what = 1 then MpdCli.previous w env.cmd
      else (true, w)
    (controlCode ok, w)

/-- Both units are taken as a position in the current song. -/
def seek (upnpdurationtos : String → Int) (w : World) (unit target : Option String)
    (env : ControlEnv) : UpnpCode × World :=
  match unit, target with
  | some unit, some target =>
      if unit = "REL_TIME" ∨ unit = "ABS_TIME" then
        let (ok, w) := MpdCli.seek w (upnpdurationtos target) env.play
        (controlCode ok, w)
      else (.invalidParam, w)
  | _, _ => (.invalidParam, w)

end AVTransport

/-- The controls, the idle loop which reads the status, and whatever else happens to MPD. -/
inductive ControlAct
  | stop (env : ControlEnv)
  | play (env : ControlEnv)
  | pause (env : ControlEnv)
  | next (env : ControlEnv)
  | previous (env : ControlEnv)
  | seek (unit target : Option String) (env : ControlEnv)
  | status (env : StatusEnv)
  | mpd (changed : Mpd)

def PlayState.toggled : PlayState → PlayState
  | .play => .pause
  | .pause => .play
  | state => state

/-- MPD executes `pause` for both attempts. -/
def ControlEnv.TogglesTwice (env : ControlEnv) (mpd : Mpd) : Prop :=
  env.cmd.val.Twice (RetryAct.plain fun _ m => some m.togglePause) mpd

instance (env : ControlEnv) (mpd : Mpd) : Decidable (env.TogglesTwice mpd) :=
  inferInstanceAs (Decidable (env.cmd.val.Twice _ mpd))

namespace ControlAct

variable (upnpdurationtos : String → Int)

def step (w : World) : ControlAct → Option (World × UpnpCode)
  | .stop env => some (AVTransport.playcontrol w 0 env).swap
  | .play env => some (AVTransport.playcontrol w 1 env).swap
  | .pause env => some (AVTransport.playcontrol w 2 env).swap
  | .next env => some (AVTransport.seqcontrol w 0 env).swap
  | .previous env => some (AVTransport.seqcontrol w 1 env).swap
  | .seek unit target env => some (AVTransport.seek upnpdurationtos w unit target env).swap
  | .status env => some ((updStatus w env).1, .success)
  | .mpd changed => some ({ w with mpd := changed }, .success)

/-- What a control point expects of a control which reports success. An empty queue has nothing
to play. -/
def Obeyed (_ : World) (action : ControlAct) (t : World) (code : UpnpCode) : Prop :=
  code = .success →
    match action with
    | .stop _ => t.mpd.state ≠ .play ∧ t.mpd.state ≠ .pause
    | .play _ => t.mpd.state = .play ∨ t.mpd.queue.songs = []
    | .pause _ => t.mpd.state ≠ .play
    | _ => True

/-- The condition on each step: what the status says of the player leads to a command which does
what the control wants of the player as it is. -/
def Timely (s : World) (action : ControlAct) (_ : World) (code : UpnpCode) : Prop :=
  code = .success →
    match action with
    | .stop _ =>
        (s.cli.m_stat.state = .play ∨ s.cli.m_stat.state = .pause) ∨
          s.mpd.state ≠ .play ∧ s.mpd.state ≠ .pause
    | .play env =>
        s.cli.m_stat.state = .pause →
          s.mpd.state = (if env.TogglesTwice s.mpd then .play else .pause) ∨
            s.mpd.queue.songs = []
    | .pause env =>
        s.mpd.state ≠
          if s.cli.m_stat.state = .play ∧ ¬ env.TogglesTwice s.mpd then .pause else .play
    | _ => True

end ControlAct

/-- A run which remembers whether the status was read after the last thing that happened to the
player. -/
structure ControlRun where
  w : World
  read : Bool

namespace ControlRun

variable (upnpdurationtos : String → Int)

/-- `play` reads the status itself. -/
def reads (s : ControlRun) (code : UpnpCode) : ControlAct → Bool
  | .status env => env.answered || s.read
  | .play _ => code = .success ∧ s.w.cli.m_stat.state ≠ .pause
  | _ => false

def step (s : ControlRun) (action : ControlAct) : Option (ControlRun × UpnpCode) :=
  (ControlAct.step upnpdurationtos s.w action).map fun (w, code) =>
    ({ w := w, read := s.reads code action }, code)

def Obeyed (s : ControlRun) (action : ControlAct) (t : ControlRun) (code : UpnpCode) : Prop :=
  ControlAct.Obeyed s.w action t.w code

/-- The control comes after the status was read, and is not executed twice by MPD. -/
def Attentive (s : ControlRun) (action : ControlAct) (_ : ControlRun) (_ : UpnpCode) : Prop :=
  match action with
  | .stop _ => s.read = true
  | .play env | .pause env => s.read = true ∧ ¬ env.TogglesTwice s.w.mpd
  | _ => True

instance (s t : ControlRun) (code : UpnpCode) : ∀ action, Decidable (s.Attentive action t code)
  | .stop _ => inferInstanceAs (Decidable (s.read = true))
  | .play env | .pause env =>
      inferInstanceAs (Decidable (s.read = true ∧ ¬ env.TogglesTwice s.w.mpd))
  | .next _ | .previous _ | .seek .. | .status _ | .mpd _ => .isTrue trivial

/-- A status which was read last tells what the player does. -/
def Fresh (s : ControlRun) : Prop := s.read = true → s.w.cli.m_stat.state = s.w.mpd.state

end ControlRun

section Commands

variable {w t : World}

@[simp] theorem state_edited (m : Mpd) (edits : List MpdQueue) :
    (m.edited edits).state = m.state := by
  unfold Mpd.edited
  induction edits generalizing m with
  | nil => rfl
  | cons queue rest ih => exact ih _

@[simp] theorem state_updSongs (stat : MpdStatus) (mpd : Mpd) (env : StatusEnv) :
    (stat.updSongs mpd env).state = stat.state := by
  obtain ⟨_, _, _, _, same⟩ := updSongs_eq stat mpd env
  rw [same]

/-- The status which is read tells the state of the player, and reading leaves it alone. -/
theorem state_updStatus (w : World) (env : StatusEnv) :
    (updStatus w env).1.mpd.state = w.mpd.state ∧
      (updStatus w env).1.cli.m_stat.state =
        if env.answered then w.mpd.state else w.cli.m_stat.state := by
  unfold updStatus
  dsimp only
  by_cases answered : env.answered = true
  · rw [if_pos answered, if_pos answered]
    simp [MpdStatus.copyStatus]
  · rw [if_neg answered, if_neg answered]
    simp

/-- MPD plays after `play`, if there is anything to play. -/
theorem Mpd.play_spec {m m' : Mpd} {start : Nat} (executed : m.play start = some m') :
    m'.state = .play ∨ m'.queue.songs = [] := by
  unfold Mpd.play at executed
  split at executed
  · cases executed
    exact .inl rfl
  · split at executed
    · rename_i empty
      cases executed
      exact .inr empty
    · unfold Mpd.playPos at executed
      split at executed
      · cases executed
        exact .inl rfl
      · cases executed

namespace MpdCli

/-- A command which succeeds, for what it does to MPD. -/
theorem command_eq_true_iff {env : CmdEnv} {cmd : Nat → Mpd → Option Mpd} :
    command w env cmd = (true, t) ↔
      ∃ mpd, retryCmd env (RetryAct.plain cmd) w.mpd = (.success (), mpd) ∧
        t = { w with mpd := mpd } := by
  have same : retryCmd env (RetryAct.plain cmd) w.mpd =
    retryCmd env (fun chosen mpd => (cmd chosen mpd).map fun mpd => ((), mpd)) w.mpd := rfl
  unfold command
  rw [← same]
  cases sent : retryCmd env (RetryAct.plain cmd) w.mpd with
  | mk ended m =>
      cases ended with
      | notOk => simp
      | error => simp
      | success done => simp [eq_comm]

/-- A command which MPD never refuses is done once, or once more. -/
theorem command_total {env : CmdEnv} (alone : env.Alone) {change : Mpd → Mpd}
    (done : command w env (fun _ mpd => some (change mpd)) = (true, t)) :
    t.mpd =
      if env.Twice (RetryAct.plain fun _ mpd => some (change mpd)) w.mpd then
        change (change w.mpd)
      else change w.mpd := by
  obtain ⟨mpd, succeeds, rfl⟩ := command_eq_true_iff.mp done
  by_cases twice : env.Twice (RetryAct.plain fun _ mpd => some (change mpd)) w.mpd
  · rw [if_pos twice]
    obtain ⟨-, ways⟩ := retryCmd_eq_success_iff.mp succeeds
    rcases ways with ⟨replied, -⟩ | ⟨-, -, -, executed⟩
    · rw [twice.lost] at replied
      cases replied
    · have first : (env.first.run (RetryAct.plain fun _ mpd => some (change mpd)) w.mpd).2 =
          change w.mpd :=
        Attempt.run_of_executed alone.1 (by simp [twice.lost]) rfl
      rw [first, alone.2] at executed
      cases executed
      rfl
  · rw [if_neg twice]
    obtain ⟨chosen, edits, none, executed⟩ := applied_of_success succeeds twice
    rw [none alone] at executed
    cases executed
    rfl

theorem stop_spec {env : CmdEnv} (alone : env.Alone) (done : stop w env = (true, t)) :
    t.mpd.state = .stop := by
  rw [command_total alone done]
  split <;> rfl

theorem togglePause_spec {env : ControlEnv} (done : togglePause w env.cmd = (true, t)) :
    t.mpd.state =
        (if env.TogglesTwice w.mpd then w.mpd.state else w.mpd.state.toggled) ∧
      t.mpd.queue = w.mpd.queue ∧ t.cli = w.cli := by
  have state (m : Mpd) : m.togglePause.state = m.state.toggled := rfl
  obtain ⟨mpd, -, same⟩ := command_eq_true_iff.mp done
  have cli : t.cli = w.cli := by rw [same]
  rw [command_total env.cmd.property done]
  by_cases twice : env.TogglesTwice w.mpd
  · have again : env.cmd.val.Twice (RetryAct.plain fun _ m => some m.togglePause) w.mpd := twice
    rw [if_pos again, if_pos twice, state, state]
    refine ⟨?_, rfl, cli⟩
    cases w.mpd.state <;> rfl
  · have once : ¬ env.cmd.val.Twice (RetryAct.plain fun _ m => some m.togglePause) w.mpd := twice
    rw [if_neg once, if_neg twice]
    exact ⟨state _, rfl, cli⟩

/-- MPD plays, or has nothing to play, and the status tells it. -/
theorem play_spec {env : ControlEnv} (done : play w (-1) env.play = (true, t)) :
    (t.mpd.state = .play ∨ t.mpd.queue.songs = []) ∧ t.cli.m_stat.state = t.mpd.state := by
  unfold play at done
  dsimp only at done
  split at done
  · cases done
  · rename_i middle sent
    obtain ⟨mpd, succeeds, rfl⟩ := command_eq_true_iff.mp sent
    have status := state_updStatus { w with mpd := mpd } env.play.status
    have answered : (updStatus { w with mpd := mpd } env.play.status).2 = true :=
      congrArg Prod.fst done
    obtain rfl : (updStatus { w with mpd := mpd } env.play.status).1 = t := congrArg Prod.snd done
    have told : env.play.status.answered = true := by
      unfold updStatus at answered
      by_contra silent
      simp [silent] at answered
    have before : env.play.status.before = [] := env.status.property.1
    have during : env.play.status.during = [] := env.status.property.2
    have queue : (updStatus { w with mpd := mpd } env.play.status).1.mpd = mpd := by
      rw [mpd_updStatus, before, during]
      exact ite_self _
    rw [if_pos told] at status
    refine ⟨?_, status.2.trans status.1.symm⟩
    rw [queue]
    obtain ⟨-, ways⟩ := retryCmd_eq_success_iff.mp succeeds
    have played (chosen : Nat) (m : Mpd) (executed : RetryAct.plain (fun start mpd =>
        if (-1 : Int) ≥ 0 then mpd.playPos (unsigned (-1)) else mpd.play start) chosen m =
          some ((), mpd)) : mpd.state = .play ∨ mpd.queue.songs = [] := by
      obtain ⟨m', executed, same⟩ := Option.map_eq_some_iff.mp executed
      cases same
      dsimp only at executed
      rw [if_neg (by decide)] at executed
      exact Mpd.play_spec executed
    rcases ways with ⟨-, executed⟩ | ⟨-, -, -, executed⟩
    · exact played _ _ executed
    · exact played _ _ executed

end MpdCli

end Commands

section Controls

variable {w t : World} {env : ControlEnv} {code : UpnpCode} {upnpdurationtos : String → Int}

namespace AVTransport

theorem controlCode_eq_success {ok : Bool} : controlCode ok = .success ↔ ok = true := by
  cases ok <;> decide

theorem playcontrol_stop (w : World) (env : ControlEnv) :
    playcontrol w 0 env =
      if w.cli.m_stat.state = .play ∨ w.cli.m_stat.state = .pause then
        (controlCode (MpdCli.stop w env.cmd).1, (MpdCli.stop w env.cmd).2)
      else (.success, w) := by
  unfold playcontrol
  rw [if_neg (by decide)]
  cases state : w.cli.m_stat.state <;> simp [controlCode]

theorem playcontrol_play (w : World) (env : ControlEnv) :
    playcontrol w 1 env =
      if w.cli.m_stat.state = .pause then
        (controlCode (MpdCli.togglePause w env.cmd).1, (MpdCli.togglePause w env.cmd).2)
      else (controlCode (MpdCli.play w (-1) env.play).1, (MpdCli.play w (-1) env.play).2) := by
  unfold playcontrol
  rw [if_neg (by decide)]
  cases state : w.cli.m_stat.state <;> simp

theorem playcontrol_pause (w : World) (env : ControlEnv) :
    playcontrol w 2 env =
      if w.cli.m_stat.state = .play then
        (controlCode (MpdCli.togglePause w env.cmd).1, (MpdCli.togglePause w env.cmd).2)
      else (.success, w) := by
  unfold playcontrol
  rw [if_neg (by decide)]
  cases state : w.cli.m_stat.state <;> simp [controlCode]

end AVTransport

namespace ControlAct

open AVTransport

/-- Stop does nothing if the status says that the player is stopped. -/
theorem obeyed_stop_iff (taken : playcontrol w 0 env = (code, t)) :
    Obeyed w (.stop env) t code ↔ Timely w (.stop env) t code := by
  rw [playcontrol_stop] at taken
  by_cases active : w.cli.m_stat.state = .play ∨ w.cli.m_stat.state = .pause
  · rw [if_pos active] at taken
    obtain ⟨rfl, rfl⟩ := Prod.mk.inj taken
    refine iff_of_true (fun success => ?_) fun _ => .inl active
    have stopped := MpdCli.stop_spec env.cmd.property
      (Prod.ext (controlCode_eq_success.mp success) rfl)
    dsimp only
    rw [stopped]
    exact ⟨by decide, by decide⟩
  · rw [if_neg active] at taken
    obtain ⟨rfl, rfl⟩ := Prod.mk.inj taken
    exact forall_congr' fun _ => (or_iff_right active).symm

/-- Play resumes a player which the status says is paused, with a command which pauses it if it
plays. -/
theorem obeyed_play_iff (taken : playcontrol w 1 env = (code, t)) :
    Obeyed w (.play env) t code ↔ Timely w (.play env) t code := by
  rw [playcontrol_play] at taken
  by_cases paused : w.cli.m_stat.state = .pause
  · rw [if_pos paused] at taken
    obtain ⟨rfl, rfl⟩ := Prod.mk.inj taken
    refine forall_congr' fun success => ?_
    obtain ⟨state, queue, -⟩ := MpdCli.togglePause_spec
      (Prod.ext (controlCode_eq_success.mp success) rfl)
    dsimp only
    rw [state, queue, forall_prop_of_true paused]
    refine or_congr ?_ Iff.rfl
    by_cases twice : env.TogglesTwice w.mpd
    · rw [if_pos twice, if_pos twice]
    · rw [if_neg twice, if_neg twice]
      cases w.mpd.state <;> decide
  · rw [if_neg paused] at taken
    obtain ⟨rfl, rfl⟩ := Prod.mk.inj taken
    refine iff_of_true (fun success => ?_) fun _ told => absurd told paused
    exact (MpdCli.play_spec (Prod.ext (controlCode_eq_success.mp success) rfl)).1

/-- Pause pauses a player which the status says is playing, with a command which resumes it if it
is paused already. -/
theorem obeyed_pause_iff (taken : playcontrol w 2 env = (code, t)) :
    Obeyed w (.pause env) t code ↔ Timely w (.pause env) t code := by
  rw [playcontrol_pause] at taken
  by_cases plays : w.cli.m_stat.state = .play
  · rw [if_pos plays] at taken
    obtain ⟨rfl, rfl⟩ := Prod.mk.inj taken
    refine forall_congr' fun success => ?_
    obtain ⟨state, -⟩ := MpdCli.togglePause_spec
      (Prod.ext (controlCode_eq_success.mp success) rfl)
    dsimp only
    rw [state]
    by_cases twice : env.TogglesTwice w.mpd
    · rw [if_pos twice, if_neg fun both => both.2 twice]
    · rw [if_neg twice, if_pos ⟨plays, twice⟩]
      cases w.mpd.state <;> decide
  · rw [if_neg plays] at taken
    obtain ⟨rfl, rfl⟩ := Prod.mk.inj taken
    refine forall_congr' fun _ => ?_
    dsimp only
    rw [if_neg fun both => plays both.1]

theorem obeyed_step_iff {action : ControlAct}
    (taken : step upnpdurationtos w action = some (t, code)) :
    Obeyed w action t code ↔ Timely w action t code := by
  cases action with
  | stop env => exact obeyed_stop_iff (Prod.swap_inj.mp (Option.some.inj taken))
  | play env => exact obeyed_play_iff (Prod.swap_inj.mp (Option.some.inj taken))
  | pause env => exact obeyed_pause_iff (Prod.swap_inj.mp (Option.some.inj taken))
  | next env => rfl
  | previous env => rfl
  | seek unit target env => rfl
  | status env => rfl
  | mpd changed => rfl

/-- Whatever the controls, the readings of the status and the player's own changes, in any order:
each control which reports success is obeyed exactly when what the status says of the player fits
it. -/
theorem controls_obeyed_iff (upnpdurationtos : String → Int) (w : World)
    (actions : List ControlAct) :
    Machine.Along Obeyed (step upnpdurationtos) w actions ↔
      Machine.Along Timely (step upnpdurationtos) w actions := by
  refine @Machine.along_iff_of_invariant _ _ _ _ (fun _ => True) _ _ ?_ w actions trivial
  intro s action t code _ taken
  exact ⟨obeyed_step_iff taken, fun _ => trivial⟩

end ControlAct

namespace ControlRun

open AVTransport

variable {s t : ControlRun} {action : ControlAct}

theorem step_eq_some (taken : step upnpdurationtos s action = some (t, code)) :
    ControlAct.step upnpdurationtos s.w action = some (t.w, code) ∧
      t.read = s.reads code action := by
  obtain ⟨⟨w, code'⟩, done, same⟩ := Option.map_eq_some_iff.mp taken
  cases same
  exact ⟨done, rfl⟩

theorem fresh_step (fresh : s.Fresh) (taken : step upnpdurationtos s action = some (t, code)) :
    t.Fresh := by
  obtain ⟨done, read⟩ := step_eq_some taken
  intro known
  rw [read] at known
  cases action with
  | status env =>
      obtain ⟨w, -⟩ := Prod.mk.inj (Option.some.inj done)
      have status := state_updStatus s.w env
      rw [← w, status.1, status.2]
      by_cases answered : env.answered = true
      · rw [if_pos answered]
      · rw [if_neg answered]
        rw [reads, Bool.eq_false_of_not_eq_true answered, Bool.false_or] at known
        exact fresh known
  | play env =>
      obtain ⟨success, running⟩ := of_decide_eq_true known
      have taken : playcontrol s.w 1 env = (code, t.w) :=
        Prod.swap_inj.mp (Option.some.inj done)
      rw [playcontrol_play, if_neg running] at taken
      obtain ⟨ended, w⟩ := Prod.mk.inj taken
      rw [success, controlCode_eq_success] at ended
      rw [← w]
      exact (MpdCli.play_spec (Prod.ext ended rfl)).2
  | stop env => cases known
  | pause env => cases known
  | next env => cases known
  | previous env => cases known
  | seek unit target env => cases known
  | mpd changed => cases known

/-- A status which was read last fits any control. -/
theorem timely_of_attentive (fresh : s.Fresh) (attentive : s.Attentive action t code) :
    ControlAct.Timely s.w action t.w code := by
  intro _
  cases action with
  | stop env =>
      dsimp only
      rw [fresh attentive]
      cases s.w.mpd.state <;> decide
  | play env =>
      dsimp only
      rw [fresh attentive.1, if_neg attentive.2]
      exact .inl
  | pause env =>
      dsimp only
      rw [fresh attentive.1]
      by_cases plays : s.w.mpd.state = .play
      · rw [if_pos ⟨plays, attentive.2⟩, plays]
        decide
      · rw [if_neg fun both => plays both.1]
        exact plays
  | next env => trivial
  | previous env => trivial
  | seek unit target env => trivial
  | status env => trivial
  | mpd changed => trivial

/-- If the status is read before each control, and MPD executes no control twice, then whatever
happens between the controls each one which reports success is obeyed. -/
theorem controls_obeyed (upnpdurationtos : String → Int) (s : ControlRun)
    (actions : List ControlAct) (fresh : s.Fresh)
    (attentive : Machine.Along Attentive (step upnpdurationtos) s actions) :
    Machine.Along Obeyed (step upnpdurationtos) s actions := by
  apply Machine.along_of_invariant _ s actions fresh attentive
  intro s action t code fresh attentive taken
  exact ⟨fresh_step fresh taken,
    (ControlAct.obeyed_step_iff (step_eq_some taken).1).mpr (timely_of_attentive fresh attentive)⟩

/-- Without a reading of the status between them, the second of two Pauses resumes the player. -/
theorem plays_after_second_pause {u : ControlRun} {env env' : ControlEnv} (fresh : s.Fresh)
    (read : s.read = true) (plays : s.w.mpd.state = .play)
    (first : step upnpdurationtos s (.pause env) = some (t, .success))
    (second : step upnpdurationtos t (.pause env') = some (u, .success))
    (once : ¬ env.TogglesTwice s.w.mpd) (once' : ¬ env'.TogglesTwice t.w.mpd) :
    u.w.mpd.state = .play := by
  have paused : playcontrol s.w 2 env = (.success, t.w) :=
    Prod.swap_inj.mp (Option.some.inj (step_eq_some first).1)
  have resumed : playcontrol t.w 2 env' = (.success, u.w) :=
    Prod.swap_inj.mp (Option.some.inj (step_eq_some second).1)
  have told := (fresh read).trans plays
  rw [playcontrol_pause, if_pos told] at paused
  obtain ⟨done, w⟩ := Prod.mk.inj paused
  obtain ⟨state, -, cli⟩ := MpdCli.togglePause_spec (Prod.ext (controlCode_eq_success.mp done) w)
  rw [if_neg once, plays] at state
  rw [playcontrol_pause, cli, if_pos told] at resumed
  obtain ⟨done, w⟩ := Prod.mk.inj resumed
  obtain ⟨state', -, -⟩ := MpdCli.togglePause_spec (Prod.ext (controlCode_eq_success.mp done) w)
  rw [state', if_neg once', state]
  rfl

def answeredAll : ControlEnv := ⟨⟨{}, rfl, rfl⟩, ⟨{}, rfl, rfl⟩⟩

/-- One song in the queue, and nothing read of it. -/
def oneSong : ControlRun where
  w := {
    cli := {}
    mpd := { queue := ⟨[{ id := 1, uri := "http://host/one" }], by decide, by decide⟩ } }
  read := false

/-- The song is played, paused, resumed and stopped. -/
theorem controls_obeyed_oneSong :
    Machine.Along Obeyed (step fun _ => 0) oneSong
      [.status {}, .play answeredAll, .pause answeredAll, .status {}, .play answeredAll,
        .status {}, .stop answeredAll] :=
  controls_obeyed _ _ _ (fun known => Bool.noConfusion known) (by decide)

end ControlRun

end Controls

end Upmpdcli
