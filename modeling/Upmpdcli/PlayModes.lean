import Upmpdcli.AVTransportAtomic
import Upmpdcli.AVTransportControl

set_option autoImplicit false

/- The play modes of MPD, which two services set and tell each in its own way. -/
namespace Upmpdcli

/-- What becomes of the commands of `setPlayMode`. -/
structure ModeEnv where
  rept : {env : CmdEnv // env.Alone}
  random : {env : CmdEnv // env.Alone}
  single : {env : CmdEnv // env.Alone}

namespace AVTransport

/-- What `setPlayMode` asks of MPD: the repeat, random and single modes. -/
def modesOf : String → Option (Bool × Bool × Bool)
  | "NORMAL" => some (false, false, false)
  | "SHUFFLE" => some (false, true, false)
  | "REPEAT_ONE" => some (true, false, true)
  | "REPEAT_ALL" => some (true, false, false)
  | "RANDOM" => some (true, true, false)
  | "DIRECT_1" => some (false, false, true)
  | _ => none

/-- The commands of `setPlayMode`, until one fails. -/
def setModes (w : World) (modes : Bool × Bool × Bool) (env : ModeEnv) : Bool × World :=
  match MpdCli.repeat_ w modes.1 env.rept with
  | (false, w) => (false, w)
  | (true, w) =>
      match MpdCli.random w modes.2.1 env.random with
      | (false, w) => (false, w)
      | (true, w) => MpdCli.single w modes.2.2 env.single

def setPlayMode (opts : AvtOptions) (w : World) (newPlayMode : Option String) (env : ModeEnv) :
    UpnpCode × World :=
  match newPlayMode with
  | none => (.invalidParam, w)
  | some playmode =>
      -- the modes make no sense for the one or two entries of a queue of our own
      if opts.ownQueue then (.success, w)
      else
        match modesOf playmode with
        | none => (.invalidParam, w)
        | some modes =>
            let (ok, w) := setModes w modes env
            (controlCode ok, w)

/-- The `PlayMode` of `getTransportSettings`. -/
def getTransportSettings (w : World) : String := mpdsToPlaymode w.cli.m_stat

end AVTransport

/-- The result of an action which an inactive service refuses with an HTTP error. -/
inductive ModeCode
  | upnp (code : UpnpCode)
  | conflict
deriving DecidableEq

namespace OHPlaylist

/-- `setRepeat` and `setShuffle`, with the call for one mode. -/
def setMode (pl : OHPlaylist) (w : World) (value : Option Bool)
    (call : World → Bool → Bool × World) : ModeCode × World :=
  if pl.m_active then
    match value with
    | none => (.upnp .internalError, w)
    | some onoff =>
        let (ok, w) := call w onoff
        (.upnp (AVTransport.controlCode ok), w)
  else (.conflict, w)

def setRepeat (pl : OHPlaylist) (w : World) (value : Option Bool) (env : CmdEnv) :
    ModeCode × World :=
  pl.setMode w value fun w onoff => MpdCli.repeat_ w onoff env

/-- MPD's own shuffle would change the order of the queue. -/
def setShuffle (pl : OHPlaylist) (w : World) (value : Option Bool) (env : CmdEnv) :
    ModeCode × World :=
  pl.setMode w value fun w onoff => MpdCli.random w onoff env

/-- The `Value` of `repeat`. -/
def repeat_ (pl : OHPlaylist) (w : World) : Except ModeCode String :=
  if pl.m_active then .ok (flag w.cli.m_stat.rept) else .error .conflict

/-- The `Value` of `shuffle`. -/
def shuffle (pl : OHPlaylist) (w : World) : Except ModeCode String :=
  if pl.m_active then .ok (flag w.cli.m_stat.random) else .error (.upnp .internalError)

end OHPlaylist

def Mpd.modes (mpd : Mpd) : Bool × Bool × Bool := (mpd.rept, mpd.random, mpd.single)

/-- MPD executes the command, and a reply arrives. -/
def CmdEnv.Answered (env : CmdEnv) : Prop :=
  env.ok = true ∧
    (env.first.outcome = .replied ∨
      env.first.outcome ≠ .replied ∧ env.reopened = true ∧ env.second.outcome = .replied)

instance (env : CmdEnv) : Decidable env.Answered := inferInstanceAs (Decidable (_ ∧ _))

/-- The actions on the modes, of both services and of other clients of MPD. -/
inductive ModeAct
  | setPlayMode (newPlayMode : Option String) (env : ModeEnv)
  | setRepeat (pl : OHPlaylist) (value : Option Bool) (env : {env : CmdEnv // env.Alone})
  | setShuffle (pl : OHPlaylist) (value : Option Bool) (env : {env : CmdEnv // env.Alone})
  | status (env : StatusEnv)
  | mpd (changed : Mpd)

namespace ModeAct

variable (opts : AvtOptions)

def step (w : World) : ModeAct → Option (World × ModeCode)
  | .setPlayMode newPlayMode env =>
      let (code, w) := AVTransport.setPlayMode opts w newPlayMode env
      some (w, .upnp code)
  | .setRepeat pl value env => some (pl.setRepeat w value env).swap
  | .setShuffle pl value env => some (pl.setShuffle w value env).swap
  | .status env => some ((updStatus w env).1, .upnp .success)
  | .mpd changed => some ({ w with mpd := changed }, .upnp .success)

/-- The play mode which is told once the status is read asks for the modes MPD is in, and the
playlist service tells the same modes. -/
def Described (mpd : Mpd) : Prop :=
  ∀ (w : World) (env : StatusEnv), w.mpd = mpd → env.answered = true →
    AVTransport.modesOf (AVTransport.getTransportSettings (updStatus w env).1) = some mpd.modes ∧
      ∀ pl : OHPlaylist, pl.m_active = true →
        pl.repeat_ (updStatus w env).1 = .ok (flag mpd.rept) ∧
          pl.shuffle (updStatus w env).1 = .ok (flag mpd.random)

def Tells (_ : World) (_ : ModeAct) (t : World) (_ : ModeCode) : Prop := Described t.mpd

/-- The condition on each step: the random mode does not come to a single mode which stays. -/
def Spares (opts : AvtOptions) (s : World) (action : ModeAct) (_ : World) (_ : ModeCode) : Prop :=
  match action with
  | .setPlayMode (some playmode) env =>
      opts.ownQueue = false → ∀ modes ∈ AVTransport.modesOf playmode, modes.2.1 = true →
        s.mpd.single = true → env.rept.val.Answered → env.random.val.Reaches →
          env.random.val.Answered ∧ env.single.val.Reaches
  | .setShuffle pl (some true) env =>
      pl.m_active = true → env.val.Reaches → s.mpd.single = false
  | .mpd changed => changed.random = true → changed.single = false
  | _ => True

instance (opts : AvtOptions) (s t : World) (code : ModeCode) :
    ∀ action, Decidable (Spares opts s action t code)
  | .setPlayMode none _ | .setRepeat .. | .setShuffle _ none _ | .setShuffle _ (some false) _
  | .status _ => .isTrue trivial
  | .setPlayMode (some playmode) env =>
      inferInstanceAs (Decidable (opts.ownQueue = false →
        ∀ modes ∈ AVTransport.modesOf playmode, modes.2.1 = true → s.mpd.single = true →
          env.rept.val.Answered → env.random.val.Reaches →
            env.random.val.Answered ∧ env.single.val.Reaches))
  | .setShuffle pl (some true) env =>
      inferInstanceAs (Decidable (pl.m_active = true → env.val.Reaches → s.mpd.single = false))
  | .mpd changed => inferInstanceAs (Decidable (changed.random = true → changed.single = false))

end ModeAct

section Modes

variable {w t : World} {opts : AvtOptions}

@[simp] theorem modes_edited (m : Mpd) (edits : List MpdQueue) :
    (m.edited edits).modes = m.modes := by
  unfold Mpd.edited
  induction edits generalizing m with
  | nil => rfl
  | cons queue rest ih => exact ih _

theorem modes_updStatus (w : World) (env : StatusEnv) :
    (updStatus w env).1.mpd.modes = w.mpd.modes := by
  rw [mpd_updStatus]
  split <;> simp

/-- The status which is read has the modes of MPD. -/
theorem modes_of_answered (w : World) {env : StatusEnv} (answered : env.answered = true) :
    (updStatus w env).1.cli.m_stat.rept = w.mpd.rept ∧
      (updStatus w env).1.cli.m_stat.random = w.mpd.random ∧
        (updStatus w env).1.cli.m_stat.single = w.mpd.single := by
  obtain ⟨_, _, _, _, same⟩ := updSongs_eq
    ((w.cli.m_stat.setVolume (if env.mixer then (w.mpd.edited env.before).volume else -1)
      w.cli.m_cachedvolume).copyStatus (w.mpd.edited env.before))
    ((w.mpd.edited env.before).edited env.during) env
  have modes : (w.mpd.edited env.before).modes = w.mpd.modes := modes_edited _ _
  simp only [Mpd.modes, Prod.mk.injEq] at modes
  unfold updStatus
  dsimp only
  rw [if_pos answered]
  dsimp only
  rw [same]
  exact modes

/-- Six of the eight combinations have a name of their own. -/
theorem modesOf_mpdsToPlaymode (stat : MpdStatus) :
    AVTransport.modesOf (AVTransport.mpdsToPlaymode stat) =
        some (stat.rept, stat.random, stat.single) ↔
      (stat.random = true → stat.single = false) := by
  unfold AVTransport.mpdsToPlaymode
  cases stat.rept <;> cases stat.random <;> cases stat.single <;> decide

theorem ModeAct.described_iff (mpd : Mpd) :
    ModeAct.Described mpd ↔ (mpd.random = true → mpd.single = false) := by
  have table (w : World) (env : StatusEnv) (same : w.mpd = mpd) (answered : env.answered = true) :
      AVTransport.modesOf (AVTransport.getTransportSettings (updStatus w env).1) =
          some mpd.modes ↔ (mpd.random = true → mpd.single = false) := by
    obtain ⟨rept, random, single⟩ := modes_of_answered w answered
    have known := modesOf_mpdsToPlaymode (updStatus w env).1.cli.m_stat
    rw [rept, random, single, same] at known
    exact known
  constructor
  · intro described
    exact (table { cli := {}, mpd := mpd } {} rfl rfl).mp (described _ _ rfl rfl).1
  · intro apart w env same answered
    refine ⟨(table w env same answered).mpr apart, fun pl active => ?_⟩
    obtain ⟨rept, random, -⟩ := modes_of_answered w answered
    rw [OHPlaylist.repeat_, OHPlaylist.shuffle, if_pos active, if_pos active, rept, random, same]
    exact ⟨rfl, rfl⟩

theorem CmdEnv.Answered.reaches {env : CmdEnv} (answered : env.Answered) : env.Reaches := by
  obtain ⟨ok, ways⟩ := answered
  rcases ways with replied | ⟨unanswered, reopened, replied⟩
  · exact ⟨ok, .inl ⟨by simp [replied], trivial⟩⟩
  · exact ⟨ok, .inr ⟨unanswered, reopened, by simp [replied], trivial⟩⟩

namespace MpdCli

/-- A command which only sets something, and which MPD never refuses. -/
theorem command_setting {env : CmdEnv} (alone : env.Alone) (w : World) {f : Mpd → Mpd}
    (twice : ∀ m, f (f m) = f m) :
    command w env (fun _ mpd => some (f mpd)) =
      (decide env.Answered, { w with mpd := if env.Reaches then f w.mpd else w.mpd }) := by
  refine Prod.ext ?_ (command_idempotent alone w twice)
  rw [Bool.eq_iff_iff, decide_eq_true_iff]
  constructor
  · intro done
    obtain ⟨mpd, succeeds, -⟩ := command_eq_true_iff.mp (Prod.ext done rfl)
    obtain ⟨ok, ways⟩ := retryCmd_eq_success_iff.mp succeeds
    exact ⟨ok, ways.imp And.left fun again => ⟨again.1, again.2.1, again.2.2.1⟩⟩
  · rintro ⟨ok, ways⟩
    have succeeds : ∃ mpd,
        retryCmd env (RetryAct.plain fun _ mpd => some (f mpd)) w.mpd = (.success (), mpd) := by
      rcases ways with replied | ⟨unanswered, reopened, replied⟩
      · exact ⟨_, retryCmd_eq_success_iff.mpr ⟨ok, .inl ⟨replied, rfl⟩⟩⟩
      · exact ⟨_, retryCmd_eq_success_iff.mpr
          ⟨ok, .inr ⟨unanswered, reopened, replied, rfl⟩⟩⟩
    obtain ⟨mpd, succeeds⟩ := succeeds
    exact congrArg Prod.fst (command_eq_true_iff.mpr ⟨mpd, succeeds, rfl⟩)

theorem repeat_eq {env : CmdEnv} (alone : env.Alone) (w : World) (on : Bool) :
    repeat_ w on env =
      (decide env.Answered, { w with
        mpd := if env.Reaches then { w.mpd with rept := on } else w.mpd }) :=
  command_setting alone w (f := fun mpd => { mpd with rept := on }) fun _ => rfl

theorem random_eq {env : CmdEnv} (alone : env.Alone) (w : World) (on : Bool) :
    random w on env =
      (decide env.Answered, { w with
        mpd := if env.Reaches then { w.mpd with random := on } else w.mpd }) :=
  command_setting alone w (f := fun mpd => { mpd with random := on }) fun _ => rfl

theorem single_eq {env : CmdEnv} (alone : env.Alone) (w : World) (on : Bool) :
    single w on env =
      (decide env.Answered, { w with
        mpd := if env.Reaches then { w.mpd with single := on } else w.mpd }) :=
  command_setting alone w (f := fun mpd => { mpd with single := on }) fun _ => rfl

end MpdCli

namespace AVTransport

/-- How far `setModes` comes. -/
theorem setModes_spec (w : World) (r x o : Bool) (env : ModeEnv) :
    (setModes w (r, x, o) env).1 =
        decide (env.rept.val.Answered ∧ env.random.val.Answered ∧ env.single.val.Answered) ∧
      (setModes w (r, x, o) env).2.mpd.modes =
        (if env.rept.val.Reaches then r else w.mpd.rept,
          if env.rept.val.Answered ∧ env.random.val.Reaches then x else w.mpd.random,
          if env.rept.val.Answered ∧ env.random.val.Answered ∧ env.single.val.Reaches then o
          else w.mpd.single) := by
  unfold setModes
  rw [MpdCli.repeat_eq env.rept.property]
  by_cases rept : env.rept.val.Answered
  · rw [decide_eq_true rept, if_pos rept.reaches]
    dsimp only
    rw [MpdCli.random_eq env.random.property]
    by_cases random : env.random.val.Answered
    · rw [decide_eq_true random, if_pos random.reaches]
      dsimp only
      rw [MpdCli.single_eq env.single.property]
      refine ⟨by simp [rept, random], ?_⟩
      have second : env.rept.val.Answered ∧ env.random.val.Reaches := ⟨rept, random.reaches⟩
      rw [if_pos rept.reaches, if_pos second]
      by_cases single : env.single.val.Reaches
      · have third : env.rept.val.Answered ∧ env.random.val.Answered ∧ env.single.val.Reaches :=
          ⟨rept, random, single⟩
        rw [if_pos single, if_pos third]
        rfl
      · rw [if_neg single, if_neg fun all => single all.2.2]
        rfl
    · rw [decide_eq_false random]
      refine ⟨by simp [random], ?_⟩
      have third :
          ¬ (env.rept.val.Answered ∧ env.random.val.Answered ∧ env.single.val.Reaches) :=
        fun all => random all.2.1
      rw [if_pos rept.reaches, if_neg third]
      dsimp only
      by_cases reaches : env.random.val.Reaches
      · have second : env.rept.val.Answered ∧ env.random.val.Reaches := ⟨rept, reaches⟩
        rw [if_pos reaches, if_pos second]
        rfl
      · rw [if_neg reaches, if_neg fun both => reaches both.2]
        rfl
  · rw [decide_eq_false rept]
    refine ⟨by simp [rept], ?_⟩
    have second : ¬ (env.rept.val.Answered ∧ env.random.val.Reaches) := fun both => rept both.1
    have third :
        ¬ (env.rept.val.Answered ∧ env.random.val.Answered ∧ env.single.val.Reaches) :=
      fun all => rept all.1
    rw [if_neg second, if_neg third]
    dsimp only
    by_cases reaches : env.rept.val.Reaches
    · rw [if_pos reaches, if_pos reaches]
      rfl
    · rw [if_neg reaches, if_neg reaches]
      rfl

/-- Success means the modes which were asked for. -/
theorem modes_of_setPlayMode {playmode : String} {env : ModeEnv} (shared : opts.ownQueue = false)
    (done : setPlayMode opts w (some playmode) env = (.success, t)) :
    modesOf playmode = some t.mpd.modes := by
  unfold setPlayMode at done
  dsimp only at done
  rw [if_neg (by simp [shared])] at done
  cases known : modesOf playmode with
  | none =>
      rw [known] at done
      cases done
  | some modes =>
      rw [known] at done
      obtain ⟨r, x, o⟩ := modes
      obtain ⟨all, modes⟩ := setModes_spec w r x o env
      obtain ⟨code, rfl⟩ := Prod.mk.inj done
      rw [controlCode_eq_success, all, decide_eq_true_iff] at code
      have second : env.rept.val.Answered ∧ env.random.val.Reaches :=
        ⟨code.1, code.2.1.reaches⟩
      have third : env.rept.val.Answered ∧ env.random.val.Answered ∧ env.single.val.Reaches :=
        ⟨code.1, code.2.1, code.2.2.reaches⟩
      rw [modes, if_pos code.1.reaches, if_pos second, if_pos third]

/-- No play mode asks for random and single. -/
theorem modesOf_apart {playmode : String} {r x o : Bool}
    (known : modesOf playmode = some (r, x, o)) : x = true → o = false := by
  unfold modesOf at known
  split at known <;> cases known <;> decide

end AVTransport

namespace ModeAct

open AVTransport

theorem described_setModes_iff {r x o : Bool} {env : ModeEnv} (apart : x = true → o = false)
    (start : w.mpd.random = true → w.mpd.single = false) :
    ((setModes w (r, x, o) env).2.mpd.random = true →
        (setModes w (r, x, o) env).2.mpd.single = false) ↔
      (x = true → w.mpd.single = true → env.rept.val.Answered → env.random.val.Reaches →
        env.random.val.Answered ∧ env.single.val.Reaches) := by
  have modes := (setModes_spec w r x o env).2
  simp only [Mpd.modes, Prod.mk.injEq] at modes
  rw [modes.2.1, modes.2.2]
  have reaches (answered : env.random.val.Answered) : env.random.val.Reaches := answered.reaches
  grind

theorem tells_setPlayMode_iff {newPlayMode : Option String} {env : ModeEnv} {code : UpnpCode}
    (start : w.mpd.random = true → w.mpd.single = false)
    (taken : AVTransport.setPlayMode opts w newPlayMode env = (code, t)) :
    (t.mpd.random = true → t.mpd.single = false) ↔
      Spares opts w (.setPlayMode newPlayMode env) t (.upnp code) := by
  unfold AVTransport.setPlayMode at taken
  cases newPlayMode with
  | none =>
      cases taken
      exact iff_of_true start trivial
  | some playmode =>
      dsimp only at taken
      by_cases own : opts.ownQueue = true
      · rw [if_pos own] at taken
        cases taken
        refine iff_of_true start fun shared => ?_
        cases own.symm.trans shared
      · rw [if_neg own] at taken
        cases known : modesOf playmode with
        | none =>
            rw [known] at taken
            cases taken
            refine iff_of_true start fun _ modes member => ?_
            rw [known] at member
            cases member
        | some modes =>
            rw [known] at taken
            obtain ⟨r, x, o⟩ := modes
            obtain ⟨-, rfl⟩ := Prod.mk.inj taken
            rw [described_setModes_iff (modesOf_apart known) start]
            simp only [Spares, known, Option.mem_some_iff, forall_eq',
              Bool.eq_false_of_not_eq_true own, forall_true_left]

theorem tells_setMode_iff {pl : OHPlaylist} {value : Option Bool}
    {env : {env : CmdEnv // env.Alone}} {code : ModeCode} (start : w.mpd.random = true → w.mpd.single = false)
    (taken : pl.setShuffle w value env = (code, t)) :
    (t.mpd.random = true → t.mpd.single = false) ↔
      Spares opts w (.setShuffle pl value env) t code := by
  unfold OHPlaylist.setShuffle OHPlaylist.setMode at taken
  by_cases active : pl.m_active = true
  · rw [if_pos active] at taken
    cases value with
    | none =>
        cases taken
        exact iff_of_true start trivial
    | some onoff =>
        dsimp only at taken
        rw [MpdCli.random_eq env.property] at taken
        obtain ⟨-, rfl⟩ := Prod.mk.inj taken
        dsimp only
        cases onoff with
        | false =>
            refine iff_of_true ?_ trivial
            split
            · exact fun on => Bool.noConfusion on
            · exact start
        | true =>
            simp only [Spares, active, forall_true_left]
            split
            · rename_i reaches
              exact ⟨fun tells _ => tells rfl, fun spares _ => spares reaches⟩
            · rename_i unreached
              exact iff_of_true start fun reaches => absurd reaches unreached
  · rw [if_neg active] at taken
    cases taken
    refine iff_of_true start ?_
    cases value with
    | none => trivial
    | some onoff =>
        cases onoff with
        | false => trivial
        | true => exact fun on => absurd on active

/-- `setRepeat` leaves the other modes alone. -/
theorem modes_setRepeat {pl : OHPlaylist} {value : Option Bool} {env : {env : CmdEnv // env.Alone}}
    {code : ModeCode} (taken : pl.setRepeat w value env = (code, t)) :
    t.mpd.random = w.mpd.random ∧ t.mpd.single = w.mpd.single := by
  unfold OHPlaylist.setRepeat OHPlaylist.setMode at taken
  by_cases active : pl.m_active = true
  · rw [if_pos active] at taken
    cases value with
    | none =>
        cases taken
        exact ⟨rfl, rfl⟩
    | some onoff =>
        dsimp only at taken
        rw [MpdCli.repeat_eq env.property] at taken
        obtain ⟨-, rfl⟩ := Prod.mk.inj taken
        dsimp only
        split <;> exact ⟨rfl, rfl⟩
  · rw [if_neg active] at taken
    cases taken
    exact ⟨rfl, rfl⟩

/-- The play mode which is told says what MPD does, in every state of a run which starts so,
exactly when no step of it lets the random mode come to a single mode which stays. -/
theorem tells_iff_spares (opts : AvtOptions) (w : World) (actions : List ModeAct)
    (start : Described w.mpd) :
    Machine.Along Tells (step opts) w actions ↔
      Machine.Along (Spares opts) (step opts) w actions := by
  refine @Machine.along_iff_of_invariant _ _ _ _ (fun w => Described w.mpd) _ _ ?_ w actions start
  intro w action t code start taken
  refine ⟨?_, id⟩
  rw [described_iff] at start
  rw [Tells, described_iff]
  cases action with
  | setPlayMode newPlayMode env =>
      obtain ⟨rfl, rfl⟩ := Prod.mk.inj (Option.some.inj taken)
      exact tells_setPlayMode_iff start rfl
  | setRepeat pl value env =>
      obtain ⟨random, single⟩ := modes_setRepeat (Prod.swap_inj.mp (Option.some.inj taken))
      rw [random, single]
      exact iff_of_true start trivial
  | setShuffle pl value env =>
      exact tells_setMode_iff start (Prod.swap_inj.mp (Option.some.inj taken))
  | status env =>
      obtain ⟨rfl, rfl⟩ := Prod.mk.inj (Option.some.inj taken)
      have modes := modes_updStatus w env
      simp only [Mpd.modes, Prod.mk.injEq] at modes
      rw [modes.2.1, modes.2.2]
      exact iff_of_true start trivial
  | mpd changed =>
      obtain ⟨rfl, rfl⟩ := Prod.mk.inj (Option.some.inj taken)
      rfl

/-- `SetShuffle` comes while one track repeats, and the play mode is told as `NORMAL`. -/
theorem tells_iff_spares_shuffled :
    ¬ Machine.Along Tells (step {}) { cli := {}, mpd := {} }
      [.setPlayMode (some "REPEAT_ONE") ⟨⟨{}, rfl, rfl⟩, ⟨{}, rfl, rfl⟩, ⟨{}, rfl, rfl⟩⟩,
        .setShuffle { m_active := true } (some true) ⟨{}, rfl, rfl⟩] := by
  rw [tells_iff_spares _ _ _ ((described_iff _).mpr fun on => Bool.noConfusion on)]
  decide

end ModeAct

end Modes

end Upmpdcli
