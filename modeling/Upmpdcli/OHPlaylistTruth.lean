import Upmpdcli.MpdCliRetry
import Upmpdcli.OHPlaylist

set_option autoImplicit false

/- What an insertion says, and the songs which MPD has added. -/
namespace Upmpdcli

section Executed

variable {α : Type} (cmd : Nat → Mpd → Option (α × Mpd))

/-- The result of the command, if MPD executes it in this attempt. -/
def Attempt.executed (e : Attempt) (mpd : Mpd) : Option α :=
  if e.outcome = .notSent then none else (cmd e.newid (mpd.edited e.edits)).map Prod.fst

/-- The results of the executions of the command of a `RETRY_CMD`, answered or not. -/
def CmdEnv.executed (env : CmdEnv) (mpd : Mpd) : List α :=
  if env.ok then
    let ran := env.first.run cmd mpd
    (env.first.executed cmd mpd).toList ++
      if ran.1.isNone ∧ env.first.outcome ≠ .replied ∧ env.reopened = true then
        (env.second.executed cmd ran.2).toList
      else []
  else []

variable {cmd} {mpd mpd' : Mpd} {result : α}

theorem Attempt.length_executed (e : Attempt) :
    (e.executed cmd mpd).toList.length = e.executions cmd mpd := by
  unfold Attempt.executed Attempt.executions
  by_cases sent : e.outcome = .notSent
  · rw [if_pos sent, if_neg fun both => both.1 sent]
    rfl
  · rw [if_neg sent]
    cases ran : cmd e.newid (mpd.edited e.edits) with
    | none => simp
    | some pair => simp [sent]

theorem CmdEnv.length_executed (env : CmdEnv) :
    (env.executed cmd mpd).length = env.executions cmd mpd := by
  unfold CmdEnv.executed CmdEnv.executions
  by_cases ok : env.ok = true
  · rw [if_pos ok, if_pos ok]
    dsimp only
    rw [List.length_append, Attempt.length_executed]
    congr 1
    split
    · exact Attempt.length_executed env.second
    · rfl
  · rw [if_neg ok, if_neg ok]
    rfl

theorem Attempt.executed_of_replied {e : Attempt} (replied : e.outcome = .replied)
    (done : cmd e.newid (mpd.edited e.edits) = some (result, mpd')) :
    e.executed cmd mpd = some result := by
  unfold Attempt.executed
  rw [replied, done]
  rfl

/-- A result which is received is that of an execution. -/
theorem CmdEnv.mem_executed_of_success {env : CmdEnv}
    (done : retryCmd env cmd mpd = (.success result, mpd')) : result ∈ env.executed cmd mpd := by
  obtain ⟨ok, ways⟩ := retryCmd_eq_success_iff.mp done
  unfold CmdEnv.executed
  rw [if_pos ok]
  dsimp only
  rw [List.mem_append]
  rcases ways with ⟨replied, executed⟩ | ⟨unanswered, reopened, replied, executed⟩
  · left
    rw [Attempt.executed_of_replied replied executed]
    exact List.mem_singleton.mpr rfl
  · right
    have unknown : (env.first.run cmd mpd).1 = none := Attempt.run_of_not_replied unanswered
    rw [unknown, if_pos ⟨rfl, unanswered, reopened⟩,
      Attempt.executed_of_replied replied executed]
    exact List.mem_singleton.mpr rfl

theorem CmdEnv.ran_of_mem_executed {env : CmdEnv} (there : result ∈ env.executed cmd mpd) :
    ∃ chosen m m', cmd chosen m = some (result, m') := by
  have attempt {e : Attempt} {m : Mpd} (there : result ∈ (e.executed cmd m).toList) :
      ∃ chosen m m', cmd chosen m = some (result, m') := by
    unfold Attempt.executed at there
    split at there
    · cases there
    · obtain ⟨⟨_, m'⟩, ran, rfl⟩ := Option.map_eq_some_iff.mp (Option.mem_toList.mp there)
      exact ⟨_, _, m', ran⟩
  unfold CmdEnv.executed at there
  split at there
  · dsimp only at there
    rw [List.mem_append] at there
    rcases there with first | second
    · exact attempt first
    · split at second
      · exact attempt second
      · cases second
  · cases there

theorem Attempt.run_of_executed_none {e : Attempt} (idle : e.executed cmd mpd = none) :
    e.run cmd mpd = (none, mpd.edited e.edits) := by
  unfold Attempt.executed at idle
  unfold Attempt.run
  dsimp only
  by_cases unsent : e.outcome = .notSent
  · rw [unsent]
  · rw [if_neg unsent, Option.map_eq_none_iff] at idle
    rw [idle]
    cases e.outcome <;> rfl

/-- A command which is not executed leaves MPD to the other clients. -/
theorem CmdEnv.retryCmd_of_not_executed {env : CmdEnv} (idle : env.executed cmd mpd = []) :
    ∃ edits, (retryCmd env cmd mpd).2 = mpd.edited edits := by
  unfold CmdEnv.executed at idle
  unfold retryCmd
  by_cases ok : env.ok = true
  · rw [if_pos ok] at idle ⊢
    obtain ⟨first, second⟩ := List.append_eq_nil_iff.mp idle
    have ran := Attempt.run_of_executed_none (Option.toList_eq_nil_iff.mp first)
    rw [ran] at second ⊢
    dsimp only at second ⊢
    by_cases again : env.first.outcome ≠ .replied ∧ env.reopened = true
    · rw [if_pos ⟨rfl, again⟩] at second
      have ran' := Attempt.run_of_executed_none (Option.toList_eq_nil_iff.mp second)
      rw [if_pos again, ran', ← edited_append]
      exact ⟨_, rfl⟩
    · rw [if_neg again]
      exact ⟨_, rfl⟩
  · rw [if_neg ok]
    exact ⟨[], rfl⟩

end Executed

namespace MpdCli

/-- The ids which MPD gives to songs while `insert_i` runs. -/
def insertAdded (w : World) (uri : String) (pos : Int) (env : InsertEnv) : List Nat :=
  env.add.executed (RetryAct.add uri pos) w.mpd

/-- Where `insertAfterId` inserts, unless it cannot read the queue. -/
def insertPlace (w : World) (id : Int) (env : InsertAfterEnv) : Option (World × Int) :=
  if id = 0 then some (w, 0)
  else
    let asked := (updStatus w env.start).1
    if asked.cli.RemembersId id then some (asked, asked.cli.m_lastinsertpos + 1)
    else
      match getQueueSongs asked env.list with
      | (none, _) => none
      | (some songs, w) => some (w, posAfterId id 0 songs)

/-- The ids which MPD gives to songs while `insertAfterId` runs. -/
def insertAfterAdded (w : World) (uri : String) (id : Int) (env : InsertAfterEnv) : List Nat :=
  match insertPlace w id env with
  | none => []
  | some (w, pos) => insertAdded w uri pos env.insert

/-- The queue has to be read and is not. -/
def Unread (w : World) (id : Int) (env : InsertAfterEnv) : Prop :=
  id ≠ 0 ∧ env.list.answered = false ∧
    ¬ (w.cli.m_lastinsertid = id ∧ 0 ≤ w.cli.m_lastinsertpos ∧
      w.cli.m_lastinsertqvers =
        if env.start.answered then ((w.mpd.edited env.start.before).vers : Int)
        else w.cli.m_stat.qvers)

instance (w : World) (id : Int) (env : InsertAfterEnv) : Decidable (Unread w id env) :=
  inferInstanceAs (Decidable (_ ∧ _ ∧ _))

section Insert

variable (w : World) (uri : String) (song : UpSong)

/-- An id which `insert_i` returns is that of a song which MPD has added. -/
theorem insert_added (pos : Int) (env : InsertEnv) :
    (insert w uri pos song env).1 = -1 ∨
      ∃ id ∈ insertAdded w uri pos env, (insert w uri pos song env).1 = (id : Int) := by
  unfold insert
  dsimp only
  cases sent : retryCmd env.add (RetryAct.add uri pos) w.mpd with
  | mk ended mpd =>
      have sent' : retryCmd env.add (fun newid mpd => mpd.addId uri
          (if pos = -1 then mpd.queue.songs.length else unsigned pos) newid) w.mpd =
        (ended, mpd) := sent
      rw [sent']
      cases ended with
      | notOk => exact .inl rfl
      | error => exact .inl rfl
      | success id =>
          exact .inr ⟨id, CmdEnv.mem_executed_of_success sent, (lastinsert_updStatus _ env.status).1⟩

/-- Each of these ids is the one that MPD gives to the song in an `addid`. -/
theorem addId_of_mem_insertAdded {pos : Int} {env : InsertEnv} {id : Nat}
    (there : id ∈ insertAdded w uri pos env) :
    ∃ m m' chosen, RetryAct.add uri pos chosen m = some (id, m') := by
  obtain ⟨chosen, m, m', ran⟩ := CmdEnv.ran_of_mem_executed there
  exact ⟨m, m', chosen, ran⟩

/-- Without an addition only the other clients change what MPD has. -/
theorem mpd_insert_of_not_added {pos : Int} {env : InsertEnv}
    (idle : insertAdded w uri pos env = []) :
    ∃ edits, (insert w uri pos song env).2.mpd = w.mpd.edited edits := by
  obtain ⟨edits, same⟩ := CmdEnv.retryCmd_of_not_executed idle
  unfold insert
  dsimp only
  cases sent : retryCmd env.add (RetryAct.add uri pos) w.mpd with
  | mk ended mpd =>
      rw [sent] at same
      have sent' : retryCmd env.add (fun newid mpd => mpd.addId uri
          (if pos = -1 then mpd.queue.songs.length else unsigned pos) newid) w.mpd =
        (ended, mpd) := sent
      rw [sent']
      cases ended with
      | notOk => exact ⟨edits, same⟩
      | error => exact ⟨edits, same⟩
      | success id =>
          have added : id ∈ insertAdded w uri pos env := CmdEnv.mem_executed_of_success sent
          rw [idle] at added
          cases added

/-- `insertAfterId` fails to find a place, or inserts there. -/
theorem insertAfterId_cases (id : Int) (env : InsertAfterEnv) :
    insertPlace w id env = none ∧ (insertAfterId w uri id song env).1 = 0 ∨
      ∃ asked pos, insertPlace w id env = some (asked, pos) ∧
        insertAfterId w uri id song env = insert asked uri pos song env.insert := by
  unfold insertPlace insertAfterId
  by_cases zero : id = 0
  · rw [if_pos zero, if_pos zero]
    exact .inr ⟨_, _, rfl, rfl⟩
  · rw [if_neg zero, if_neg zero]
    dsimp only
    by_cases fast : (updStatus w env.start).1.cli.RemembersId id
    · rw [if_pos fast, if_pos fast]
      exact .inr ⟨_, _, rfl, rfl⟩
    · rw [if_neg fast, if_neg fast]
      unfold insertAfterReading getQueueSongs
      cases env.list.answered with
      | false => exact .inl ⟨rfl, rfl⟩
      | true => exact .inr ⟨_, _, rfl, rfl⟩

theorem insertPlace_eq_none_iff (id : Int) (env : InsertAfterEnv) :
    insertPlace w id env = none ↔ Unread w id env := by
  have remembers : (updStatus w env.start).1.cli.RemembersId id ↔
      w.cli.m_lastinsertid = id ∧ 0 ≤ w.cli.m_lastinsertpos ∧
        w.cli.m_lastinsertqvers =
          if env.start.answered then ((w.mpd.edited env.start.before).vers : Int)
          else w.cli.m_stat.qvers := by
    obtain ⟨lastid, lastpos, lastqvers⟩ := lastinsert_updStatus w env.start
    unfold RemembersId
    rw [lastid, lastpos, lastqvers, qvers_updStatus]
  unfold insertPlace Unread
  rw [← remembers]
  by_cases zero : id = 0
  · simp [zero]
  · rw [if_neg zero]
    dsimp only
    by_cases fast : (updStatus w env.start).1.cli.RemembersId id
    · simp [fast]
    · rw [if_neg fast]
      unfold getQueueSongs
      cases answered : env.list.answered <;> simp [zero, fast]

/-- What `insertAfterId` returns when nothing goes wrong with the queue listing. -/
theorem insertAfterId_added (id : Int) (env : InsertAfterEnv) (readable : ¬ Unread w id env) :
    (insertAfterId w uri id song env).1 = -1 ∨
      ∃ newid ∈ insertAfterAdded w uri id env,
        (insertAfterId w uri id song env).1 = (newid : Int) := by
  unfold insertAfterAdded
  rcases insertAfterId_cases w uri song id env with ⟨lost, -⟩ | ⟨asked, pos, place, ran⟩
  · exact absurd ((insertPlace_eq_none_iff w id env).mp lost) readable
  · rw [place, ran]
    exact insert_added asked uri song pos env.insert

theorem insertAfterId_of_unread (id : Int) (env : InsertAfterEnv) (unread : Unread w id env) :
    (insertAfterId w uri id song env).1 = 0 ∧ insertAfterAdded w uri id env = [] := by
  have lost := (insertPlace_eq_none_iff w id env).mpr unread
  unfold insertAfterAdded
  rw [lost]
  rcases insertAfterId_cases w uri song id env with ⟨-, zero⟩ | ⟨asked, pos, place, -⟩
  · exact ⟨zero, rfl⟩
  · rw [lost] at place
    cases place

end Insert

end MpdCli

/-- A call of `insertUri`. -/
structure InsertCall where
  pl : OHPlaylist
  w : World
  afterid : Int
  uri : String
  metadata : String
  nocheck : Bool
  env : ActEnv

namespace InsertCall

variable (help : PlaylistHelp) (c : InsertCall)

def newid : Option Int :=
  (c.pl.insertUri help c.w c.afterid c.uri c.metadata c.nocheck c.env).1

/-- It gets as far as `insertAfterId`. -/
def Sends : Prop :=
  c.pl.m_active = true ∧ (help.checkContentFormat c.uri c.metadata c.nocheck).isSome = true

instance : Decidable (c.Sends help) := inferInstanceAs (Decidable (_ ∧ _))

/-- The ids which MPD gives to songs while it runs. -/
def added : List Nat :=
  if c.Sends help then MpdCli.insertAfterAdded c.w c.uri c.afterid c.env.insert else []

/-- It gets as far as `insertAfterId`, which has to read the queue and cannot. -/
def Unread : Prop := c.Sends help ∧ MpdCli.Unread c.w c.afterid c.env.insert

instance : Decidable (c.Unread help) := inferInstanceAs (Decidable (_ ∧ _))

theorem newid_of_not_sends (refused : ¬ c.Sends help) : c.newid help = none := by
  unfold newid OHPlaylist.insertUri OHPlaylist.startInsert
  by_cases active : c.pl.m_active = true
  · rw [if_pos active]
    cases supported : help.checkContentFormat c.uri c.metadata c.nocheck with
    | none => rfl
    | some song => exact absurd ⟨active, by rw [supported]; rfl⟩ refused
  · rw [if_neg active]

theorem newid_of_sends (sends : c.Sends help) :
    ∃ song, c.newid help =
      if (MpdCli.insertAfterId c.w c.uri c.afterid song c.env.insert).1 ≠ -1 then
        some (MpdCli.insertAfterId c.w c.uri c.afterid song c.env.insert).1
      else none := by
  obtain ⟨song, supported⟩ := Option.isSome_iff_exists.mp sends.2
  refine ⟨song, ?_⟩
  unfold newid OHPlaylist.insertUri OHPlaylist.startInsert
  rw [if_pos sends.1, supported]

end InsertCall

/-- What is wanted of the result of an insertion, when MPD has given these ids to songs. -/
structure Truthful (newid : Option Int) (added : List Nat) : Prop where
  told : ∀ id, newid = some id → ∃ given ∈ added, (given : Int) = id
  nothing : added = [] → newid = none

theorem truthful_none (added : List Nat) : Truthful none added :=
  ⟨fun _ told => absurd told (by simp), fun _ => rfl⟩

theorem truthful_some {added : List Nat} {given : Nat} (there : given ∈ added) :
    Truthful (some (given : Int)) added := by
  refine ⟨fun id told => ⟨given, there, Option.some.inj told⟩, fun idle => ?_⟩
  rw [idle] at there
  cases there

theorem InsertCall.truthful_iff (help : PlaylistHelp) (c : InsertCall) :
    Truthful (c.newid help) (c.added help) ↔ ¬ c.Unread help := by
  by_cases sends : c.Sends help
  · obtain ⟨song, told⟩ := c.newid_of_sends help sends
    unfold InsertCall.added
    rw [told, if_pos sends]
    by_cases unread : MpdCli.Unread c.w c.afterid c.env.insert
    · obtain ⟨zero, idle⟩ :=
        MpdCli.insertAfterId_of_unread c.w c.uri song c.afterid c.env.insert unread
      rw [zero, idle]
      refine iff_of_false (fun truthful => ?_) (fun read => read ⟨sends, unread⟩)
      exact absurd (truthful.nothing rfl) (by simp)
    · refine iff_of_true ?_ fun both => unread both.2
      rcases MpdCli.insertAfterId_added c.w c.uri song c.afterid c.env.insert unread with
        failed | ⟨given, there, same⟩
      · rw [failed]
        exact truthful_none _
      · rw [same, if_pos (by omega)]
        exact truthful_some there
  · rw [c.newid_of_not_sends help sends]
    exact iff_of_true (truthful_none _) fun both => sends both.1

namespace OHPlaylist

variable (help : PlaylistHelp)

/-- How `Insert` calls `insertUri`. An inactive playlist is made active first, and the id is
looked up in its queue. -/
def insertCall (pl : OHPlaylist) (w : World) (args : Option (Int × String × String))
    (env : ActEnv) : Option InsertCall :=
  match args with
  | none => none
  | some (afterid, uri, metadata) =>
      match help.morphSpecialUrl uri with
      | none => none
      | some (uri, forcenocheck) =>
          if pl.m_active then some ⟨pl, w, afterid, uri, metadata, forcenocheck, env⟩
          else
            let (pl, w) := pl.comeBack w env.activate
            match pl.idFromOldId w afterid env.queue with
            | (id, w) => if id < 0 then none else some ⟨pl, w, id, uri, metadata, forcenocheck, env⟩

/-- The ids which MPD gives to songs during the insertion of an `Insert`. -/
def insertAdded (pl : OHPlaylist) (w : World) (args : Option (Int × String × String))
    (env : ActEnv) : List Nat :=
  match pl.insertCall help w args env with
  | none => []
  | some c => c.added help

/-- The result of `Insert` is that of its call of `insertUri`. -/
theorem insert_result (pl : OHPlaylist) (w : World) (args : Option (Int × String × String))
    (env : ActEnv) :
    let result := pl.insert help w args env
    (result.1 = .success ↔ result.2.1.isSome = true) ∧
      result.2.1 = (pl.insertCall help w args env).bind (InsertCall.newid help) := by
  unfold insert insertCall
  rcases args with - | ⟨afterid, uri, metadata⟩
  · exact ⟨by simp, rfl⟩
  · dsimp only
    cases morphed : help.morphSpecialUrl uri with
    | none => exact ⟨by simp, rfl⟩
    | some sending =>
        obtain ⟨sent, nocheck⟩ := sending
        dsimp only
        have called (pl : OHPlaylist) (w : World) (id : Int) :
            ∃ pl' w', pl.insertUri help w id sent metadata nocheck env =
              (InsertCall.newid help ⟨pl, w, id, sent, metadata, nocheck, env⟩, pl', w') :=
          ⟨_, _, rfl⟩
        by_cases active : pl.m_active = true
        · rw [if_pos active, if_pos active]
          obtain ⟨pl', w', ran⟩ := called pl w afterid
          dsimp only [Option.bind_some]
          rw [ran]
          cases InsertCall.newid help ⟨pl, w, afterid, sent, metadata, nocheck, env⟩ with
          | none => exact ⟨by simp, rfl⟩
          | some newid => exact ⟨by simp, rfl⟩
        · rw [if_neg active, if_neg active]
          dsimp only
          generalize (pl.comeBack w env.activate).1.idFromOldId (pl.comeBack w env.activate).2
            afterid env.queue = found
          obtain ⟨id, w'⟩ := found
          dsimp only
          by_cases negative : id < 0
          · rw [if_pos negative, if_pos negative]
            exact ⟨by simp, rfl⟩
          · rw [if_neg negative, if_neg negative]
            obtain ⟨pl', w'', ran⟩ := called (pl.comeBack w env.activate).1 w' id
            dsimp only [Option.bind_some]
            rw [ran]
            cases InsertCall.newid help
                ⟨(pl.comeBack w env.activate).1, w', id, sent, metadata, nocheck, env⟩ with
            | none => exact ⟨by simp, rfl⟩
            | some newid => exact ⟨by simp, rfl⟩

/-- The law: of every call of `insertUri` by anyone, and of `Insert`. -/
structure InsertTruth (pl : OHPlaylist) (w : World) (args : Option (Int × String × String))
    (env : ActEnv) : Prop where
  success : (pl.insert help w args env).1 = .success →
    ∃ given ∈ pl.insertAdded help w args env, (pl.insert help w args env).2.1 = some (given : Int)
  error : pl.insertAdded help w args env = [] → (pl.insert help w args env).1 ≠ .success

theorem insertTruth_iff (pl : OHPlaylist) (w : World) (args : Option (Int × String × String))
    (env : ActEnv) :
    InsertTruth help pl w args env ↔ ∀ c ∈ pl.insertCall help w args env, ¬ c.Unread help := by
  obtain ⟨code, newid⟩ := insert_result help pl w args env
  have law : InsertTruth help pl w args env ↔
      Truthful (pl.insert help w args env).2.1 (pl.insertAdded help w args env) := by
    constructor
    · rintro ⟨success, error⟩
      refine ⟨fun id told => ?_, fun idle => ?_⟩
      · obtain ⟨given, there, same⟩ := success (code.mpr (by rw [told]; rfl))
        exact ⟨given, there, Option.some.inj (same.symm.trans told)⟩
      · exact Option.not_isSome_iff_eq_none.mp fun some => error idle (code.mpr some)
    · rintro ⟨told, nothing⟩
      refine ⟨fun success => ?_, fun idle success => ?_⟩
      · obtain ⟨id, known⟩ := Option.isSome_iff_exists.mp (code.mp success)
        obtain ⟨given, there, same⟩ := told id known
        exact ⟨given, there, by rw [known, same]⟩
      · have some := code.mp success
        rw [nothing idle] at some
        cases some
  rw [law, newid]
  unfold insertAdded
  cases called : pl.insertCall help w args env with
  | none => exact iff_of_true (truthful_none _) fun c there => absurd there (by simp)
  | some c =>
      rw [Option.bind_some]
      refine (c.truthful_iff help).trans ?_
      simp

/-- Insertion tells the truth exactly when the queue is read where it has to be. -/
theorem insertUri_insert_truth_iff (help : PlaylistHelp) :
    (∀ c : InsertCall, Truthful (c.newid help) (c.added help) ↔ ¬ c.Unread help) ∧
      ∀ (pl : OHPlaylist) (w : World) (args : Option (Int × String × String)) (env : ActEnv),
        InsertTruth help pl w args env ↔ ∀ c ∈ pl.insertCall help w args env, ¬ c.Unread help :=
  ⟨fun c => c.truthful_iff help, insertTruth_iff help⟩

/-- MPD answers the status request and nothing else. -/
def listLost : ActEnv := { insert := { list := { answered := false } } }

/-- An insertion behind a song, when the queue cannot be read, succeeds with the id 0. -/
theorem insert_not_truthful :
    ¬ ∀ (help : PlaylistHelp) (c : InsertCall), Truthful (c.newid help) (c.added help) := by
  intro always
  have truthful := always .plain
    ⟨{}, { mpd := { queue := InsertAct.queueOne } }, 1, "http://h/b", "", false, listLost⟩
  have idle := truthful.nothing rfl
  cases idle

end OHPlaylist

end Upmpdcli
