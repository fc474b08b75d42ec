import Upmpdcli.MpdCliInsertPlace

set_option autoImplicit false

/- What an insertion does to the queue when nobody else edits it meanwhile, with every
outcome of the commands. -/
namespace Upmpdcli

/-- Nobody else edits the queue during a command. -/
def CmdEnv.Alone (env : CmdEnv) : Prop := env.first.edits = [] ∧ env.second.edits = []

def StatusEnv.Alone (env : StatusEnv) : Prop := env.before = [] ∧ env.during = []

structure InsertEnv.Alone (env : InsertEnv) : Prop where
  add : env.add.Alone
  tags : ∀ e ∈ env.tags, e.edits = []
  status : env.status.Alone

structure InsertAfterEnv.Alone (env : InsertAfterEnv) : Prop where
  start : env.start.Alone
  list : env.list.edits = []
  insert : env.insert.Alone

/-- MPD can give this id to a new song. -/
def MpdQueue.Fresh (q : MpdQueue) (id : Nat) : Prop := id ∉ q.ids ∧ 0 < id ∧ id < 2 ^ 31

namespace CmdEnv

/-- The one attempt which reaches MPD is answered, and has this id for a new song. -/
def Answers (env : CmdEnv) (newid : Nat) : Prop :=
  env.ok = true ∧
    (env.first.outcome = .replied ∧ newid = env.first.newid ∨
      env.first.outcome = .notSent ∧ env.reopened = true ∧ env.second.outcome = .replied ∧
        newid = env.second.newid)

/-- MPD gets the command and has an id which satisfies `fits` for the new song. -/
def Takes (env : CmdEnv) (fits : Nat → Prop) : Prop :=
  env.ok = true ∧
    (env.first.outcome ≠ .notSent ∧ fits env.first.newid ∨
      env.first.outcome ≠ .replied ∧ env.reopened = true ∧ env.second.outcome ≠ .notSent ∧
        fits env.second.newid)

end CmdEnv

section Retry

variable {α : Type} {cmd : Nat → Mpd → Option (α × Mpd)} {env : CmdEnv} {mpd mpd' : Mpd}

theorem Attempt.run_alone {e : Attempt} (alone : e.edits = []) :
    e.run cmd mpd =
      match e.outcome, cmd e.newid mpd with
      | .replied, some (result, mpd) => (some result, mpd)
      | .lost, some (_, mpd) => (none, mpd)
      | _, _ => (none, mpd) := by
  unfold Attempt.run
  rw [alone]
  rfl

/-- A command which is executed once and answered. -/
theorem retryCmd_of_answers (alone : env.Alone) {newid : Nat} (answers : env.Answers newid)
    {result : α} (executed : cmd newid mpd = some (result, mpd')) :
    retryCmd env cmd mpd = (.success result, mpd') := by
  unfold retryCmd
  rw [if_pos answers.1, Attempt.run_alone alone.1]
  rcases answers.2 with ⟨replied, rfl⟩ | ⟨notSent, reopened, replied, rfl⟩
  · simp only [replied, executed]
  · simp only [notSent, reopened]
    rw [Attempt.run_alone alone.2]
    simp [replied, executed]

/-- An attempt which does not reach MPD, or which MPD refuses. -/
theorem Attempt.run_of_not_executed {e : Attempt} (alone : e.edits = [])
    (refused : e.outcome ≠ .notSent → cmd e.newid mpd = none) : e.run cmd mpd = (none, mpd) := by
  rw [Attempt.run_alone alone]
  cases sent : e.outcome with
  | replied => simp only [refused (by simp [sent])]
  | lost => simp only [refused (by simp [sent])]
  | notSent => simp only

variable (cmd) in
/-- A command which is never executed. -/
theorem retryCmd_of_not_executed (alone : env.Alone)
    (refused : ¬ env.Takes fun newid => cmd newid mpd ≠ none) :
    (retryCmd env cmd mpd).2 = mpd ∧ ∀ result, (retryCmd env cmd mpd).1 ≠ .success result := by
  unfold CmdEnv.Takes at refused
  unfold retryCmd
  by_cases ok : env.ok = true
  · simp only [ok, true_and, not_or, not_and, not_not] at refused
    rw [if_pos ok, Attempt.run_of_not_executed alone.1 refused.1]
    dsimp only
    split
    · rename_i again
      rw [Attempt.run_of_not_executed alone.2 (refused.2 again.1 again.2)]
      exact ⟨rfl, fun _ absurd => nomatch absurd⟩
    · exact ⟨rfl, fun _ absurd => nomatch absurd⟩
  · rw [if_neg ok]
    exact ⟨rfl, fun _ absurd => nomatch absurd⟩

/-- An attempt which MPD executes, whether it is answered or not. -/
theorem Attempt.run_of_executed {e : Attempt} (alone : e.edits = []) {result : α}
    (sent : e.outcome ≠ .notSent) (executed : cmd e.newid mpd = some (result, mpd')) :
    (e.run cmd mpd).2 = mpd' := by
  rw [Attempt.run_alone alone, executed]
  cases outcome : e.outcome with
  | replied => rfl
  | lost => rfl
  | notSent => exact absurd outcome sent

/-- The daemon after both attempts. -/
theorem retryCmd_snd (ok : env.ok = true) :
    (retryCmd env cmd mpd).2 =
      if (env.first.run cmd mpd).1 = none ∧ env.first.outcome ≠ .replied ∧ env.reopened = true then
        (env.second.run cmd (env.first.run cmd mpd).2).2
      else (env.first.run cmd mpd).2 := by
  unfold retryCmd
  rw [if_pos ok]
  cases first : env.first.run cmd mpd with
  | mk result m =>
      cases result with
      | some result => rfl
      | none =>
          by_cases again : env.first.outcome ≠ .replied ∧ env.reopened = true
          · simp only [if_pos again, true_and]
            cases second : env.second.run cmd m with
            | mk result m => cases result <;> rfl
          · simp only [if_neg again, true_and]

variable (cmd) in
/-- What each execution does, a command which is executed does. -/
theorem retryCmd_of_takes (R : Mpd → Prop) (alone : env.Alone)
    (executed : ∀ newid, newid = env.first.newid ∨ newid = env.second.newid →
      ∀ result m, cmd newid mpd = some (result, m) → R m)
    (kept : ∀ newid m result m', R m → cmd newid m = some (result, m') → R m')
    (takes : env.Takes fun newid => cmd newid mpd ≠ none) : R (retryCmd env cmd mpd).2 := by
  have again (m : Mpd) (holds : R m) : R (env.second.run cmd m).2 := by
    rw [Attempt.run_alone alone.2]
    split
    · rename_i ran
      exact kept _ _ _ _ holds ran
    · rename_i ran
      exact kept _ _ _ _ holds ran
    · exact holds
  obtain ⟨ok, takes⟩ := takes
  rw [retryCmd_snd ok]
  by_cases first : env.first.outcome ≠ .notSent ∧ cmd env.first.newid mpd ≠ none
  · obtain ⟨⟨result, m⟩, done⟩ := Option.ne_none_iff_exists'.mp first.2
    have holds := executed _ (.inl rfl) _ _ done
    rw [Attempt.run_of_executed alone.1 first.1 done]
    split
    · exact again m holds
    · exact holds
  · obtain ⟨unanswered, reopened, sent, added⟩ := takes.resolve_left first
    have refused : env.first.outcome ≠ .notSent → cmd env.first.newid mpd = none := by
      intro sent
      by_contra added
      exact first ⟨sent, added⟩
    obtain ⟨⟨result, m⟩, done⟩ := Option.ne_none_iff_exists'.mp added
    rw [Attempt.run_of_not_executed alone.1 refused, if_pos ⟨rfl, unanswered, reopened⟩,
      Attempt.run_of_executed alone.2 sent done]
    exact executed _ (.inr rfl) _ _ done

variable (cmd) in
/-- What each execution preserves, the command preserves. -/
theorem retryCmd_rel {R : Mpd → Mpd → Prop} (refl : ∀ m, R m m)
    (trans : ∀ m m' m'', R m m' → R m' m'' → R m m'') (alone : env.Alone)
    (executed : ∀ newid m result m', cmd newid m = some (result, m') → R m m') (mpd : Mpd) :
    R mpd (retryCmd env cmd mpd).2 := by
  have once {e : Attempt} (quiet : e.edits = []) (m : Mpd) : R m (e.run cmd m).2 := by
    rw [Attempt.run_alone quiet]
    split
    · rename_i ran
      exact executed _ _ _ _ ran
    · rename_i ran
      exact executed _ _ _ _ ran
    · exact refl m
  by_cases ok : env.ok = true
  · rw [retryCmd_snd ok]
    split
    · exact trans _ _ _ (once alone.1 mpd) (once alone.2 _)
    · exact once alone.1 mpd
  · unfold retryCmd
    rw [if_neg ok]
    exact refl mpd

end Retry

namespace MpdQueue

variable {q q' : MpdQueue} {pos newid : Nat}

/-- The queue with exactly one new song, in this place. Its tags are not said. -/
def Inserted (q q' : MpdQueue) (place newid : Nat) (uri : String) : Prop :=
  ∃ song : MpdSong, song.id = newid ∧ song.uri = uri ∧ q'.songs = q.songs.insertIdx place song

theorem insertAt_of_fresh (uri : String) (fresh : q.Fresh newid)
    (within : pos ≤ q.songs.length) :
    ∃ q', q.insertAt pos { id := newid, uri := uri } = some q' ∧
      q'.songs = q.songs.insertIdx pos { id := newid, uri := uri } := by
  unfold insertAt
  rw [dif_pos ⟨fresh, within⟩]
  exact ⟨_, rfl, rfl⟩

/-- A new song has one place. -/
theorem place_of_inserted {uri uri' : String} {place : Nat}
    (within : pos ≤ q.songs.length) (inserted : q.Inserted q' pos newid uri)
    (wanted : q.Inserted q' place newid uri') : place = pos := by
  obtain ⟨song, id, -, songs⟩ := inserted
  obtain ⟨other, id', -, same⟩ := wanted
  have reached : place ≤ q.songs.length := by
    by_contra beyond
    have grown := List.length_insertIdx_of_le_length within song
    rw [← songs, same, List.insertIdx_of_length_lt (by omega)] at grown
    omega
  have distinct := q'.distinct
  have here : q'.songs[pos]? = some song := by
    rw [songs, List.getElem?_insertIdx_self, if_pos within]
  have there : q'.songs[place]? = some other := by
    rw [same, List.getElem?_insertIdx_self, if_pos reached]
  have ids : (q'.songs.map MpdSong.id)[place]? = (q'.songs.map MpdSong.id)[pos]? := by
    rw [List.getElem?_map, List.getElem?_map, here, there, Option.map_some, Option.map_some, id,
      id']
  have listed := (List.getElem?_eq_some_iff.mp there).1
  exact (List.getElem?_inj (by rwa [List.length_map]) distinct).mp ids

end MpdQueue

namespace Mpd

theorem addId_of_fresh {m : Mpd} (uri : String) {pos newid : Nat} (fresh : m.queue.Fresh newid)
    (within : pos ≤ m.queue.songs.length) :
    ∃ m', m.addId uri pos newid = some (newid, m') ∧
      m'.queue.songs = m.queue.songs.insertIdx pos { id := newid, uri := uri } := by
  obtain ⟨queue, inserted, songs⟩ := MpdQueue.insertAt_of_fresh uri fresh within
  unfold addId
  rw [inserted]
  exact ⟨_, rfl, songs⟩

theorem addId_ne_none_iff {m : Mpd} {uri : String} {pos newid : Nat} :
    m.addId uri pos newid ≠ none ↔ m.queue.Fresh newid ∧ pos ≤ m.queue.songs.length := by
  unfold addId MpdQueue.insertAt
  split
  · rename_i fits
    exact ⟨fun _ => fits, fun _ => Option.some_ne_none _⟩
  · rename_i refused
    exact ⟨fun added => absurd rfl added, fun fits => absurd fits refused⟩

theorem length_addId {m m' : Mpd} {uri : String} {pos newid id : Nat}
    (added : m.addId uri pos newid = some (id, m')) :
    m'.queue.songs.length = m.queue.songs.length + 1 := by
  obtain ⟨-, queue, inserted, rfl⟩ := (addId_eq_some_iff m m' uri pos newid id).mp added
  obtain ⟨songs, within⟩ := MpdQueue.songs_insertAt inserted
  rw [setQueue_queue, songs, List.length_insertIdx_of_le_length within]

end Mpd

namespace MpdCli

/-- The tags go to the new song. -/
theorem inserted_sendTagData {old : MpdQueue} {id place : Nat} {uri : String}
    (fresh : old.Fresh id) (cli : MpdCli) (song : UpSong) {env : List Attempt}
    (alone : ∀ e ∈ env, e.edits = []) {mpd : Mpd} (inserted : old.Inserted mpd.queue place id uri) :
    old.Inserted (sendTagData cli id song env mpd).queue place id uri := by
  revert inserted
  apply sendTagData_rel
    (R := fun m m' => old.Inserted m.queue place id uri → old.Inserted m'.queue place id uri)
    (fun _ inserted => inserted) (fun _ _ _ first second inserted => second (first inserted))
  · intro m m' name value tagged inserted
    obtain ⟨new, named, located, songs⟩ := inserted
    unfold Mpd.addTagId at tagged
    split at tagged
    · cases tagged
    · split at tagged
      · cases tagged
        refine ⟨{ new with tags := new.tags ++ [(name, value)] }, named, located, ?_⟩
        have others : old.songs.map (fun song =>
            if song.id = id then { song with tags := song.tags ++ [(name, value)] } else song) =
            old.songs := by
          refine (List.map_congr_left fun song member => ?_).trans (List.map_id _)
          have other : song.id ≠ id := by
            rintro rfl
            exact fresh.1 (List.mem_map_of_mem member)
          rw [if_neg other]
          rfl
        simp only [Mpd.setQueue_queue, MpdQueue.addTag, songs, List.map_insertIdx, others,
          if_pos named]
      · cases tagged
  · intro e member m
    rw [alone e member]
    exact fun inserted => inserted

variable {env : InsertEnv} (alone : env.Alone) (w : World) (uri : String) (song : UpSong)

theorem place_eq (pos : Nat) :
    (fun newid (mpd : Mpd) => mpd.addId uri
      (if (pos : Int) = -1 then mpd.queue.songs.length else unsigned pos) newid) =
      fun newid mpd => mpd.addId uri pos newid := by
  funext newid mpd
  rw [if_neg (by omega)]
  rfl

include alone in
theorem mpd_updStatus_alone (w : World) : (updStatus w env.status).1.mpd = w.mpd := by
  rw [mpd_updStatus, alone.status.1, alone.status.2]
  exact ite_self _

include alone in
/-- An insertion which MPD accepts. -/
theorem insert_of_answers {pos newid : Nat} (fresh : w.mpd.queue.Fresh newid)
    (within : pos ≤ w.mpd.queue.songs.length) (answers : env.add.Answers newid) :
    (insert w uri pos song env).1 = newid ∧
      w.mpd.queue.Inserted (insert w uri pos song env).2.mpd.queue pos newid uri := by
  obtain ⟨m, added, songs⟩ := Mpd.addId_of_fresh uri fresh within
  unfold insert
  dsimp only
  rw [place_eq, retryCmd_of_answers alone.add answers added]
  refine ⟨(lastinsert_updStatus _ env.status).1, ?_⟩
  dsimp only
  rw [mpd_updStatus_alone alone]
  exact inserted_sendTagData fresh w.cli song alone.tags ⟨_, rfl, rfl, songs⟩

theorem takes_addId_iff (env : CmdEnv) (mpd : Mpd) (pos : Nat) :
    env.Takes (fun newid => mpd.addId uri pos newid ≠ none) ↔
      pos ≤ mpd.queue.songs.length ∧ env.Takes mpd.queue.Fresh := by
  unfold CmdEnv.Takes
  simp only [Mpd.addId_ne_none_iff]
  tauto

include alone in
/-- An insertion which MPD does not execute. -/
theorem insert_of_not_takes (pos : Nat)
    (refused : ¬ (pos ≤ w.mpd.queue.songs.length ∧ env.add.Takes w.mpd.queue.Fresh)) :
    (insert w uri pos song env).1 = -1 ∧
      (insert w uri pos song env).2.mpd.queue = w.mpd.queue := by
  rw [← takes_addId_iff uri] at refused
  obtain ⟨same, failed⟩ := retryCmd_of_not_executed
    (fun newid mpd => mpd.addId uri pos newid) alone.add refused
  unfold insert
  dsimp only
  rw [place_eq]
  cases ran : retryCmd env.add (fun newid mpd => mpd.addId uri pos newid) w.mpd with
  | mk result mpd =>
      rw [ran] at same failed
      dsimp only at same
      cases result with
      | notOk => exact ⟨rfl, by rw [same]⟩
      | error => exact ⟨rfl, by rw [same]⟩
      | success result => exact absurd rfl (failed result)

include alone in
/-- An insertion which MPD executes, whether the client gets to know or not. -/
theorem insert_of_takes {pos : Nat} (within : pos ≤ w.mpd.queue.songs.length)
    (takes : env.add.Takes w.mpd.queue.Fresh) :
    (insert w uri pos song env).2.mpd.queue ≠ w.mpd.queue := by
  have executed := (takes_addId_iff uri env.add w.mpd pos).mpr ⟨within, takes⟩
  have longer := retryCmd_of_takes (fun newid mpd => mpd.addId uri pos newid)
    (fun m => w.mpd.queue.songs.length < m.queue.songs.length) alone.add
    (fun newid _ id m added => by
      have length := Mpd.length_addId added
      omega)
    (fun newid m id m' grown added => by
      have length := Mpd.length_addId added
      omega) executed
  intro unchanged
  unfold insert at unchanged
  dsimp only at unchanged
  rw [place_eq] at unchanged
  cases ran : retryCmd env.add (fun newid mpd => mpd.addId uri pos newid) w.mpd with
  | mk result mpd =>
      rw [ran] at unchanged longer
      dsimp only at unchanged longer
      rw [← unchanged] at longer
      cases result with
      | notOk => exact absurd longer (Nat.lt_irrefl _)
      | error => exact absurd longer (Nat.lt_irrefl _)
      | success newid =>
          dsimp only at longer
          rw [mpd_updStatus_alone alone] at longer
          dsimp only at longer
          have ids := ids_sendTagData w.cli newid song env.tags mpd alone.tags
          have length := congrArg List.length ids
          rw [MpdQueue.ids, MpdQueue.ids, List.length_map, List.length_map] at length
          omega

theorem posAfterId_le (id : Int) (start : Nat) (songs : List MpdSong) :
    ∃ pos : Nat, posAfterId id start songs = pos ∧ pos ≤ start + songs.length := by
  induction songs generalizing start with
  | nil => exact ⟨0, rfl, Nat.zero_le _⟩
  | cons song rest ih =>
      unfold posAfterId
      split
      · exact ⟨start + 1, rfl, by simp⟩
      · obtain ⟨pos, same, within⟩ := ih (start + 1)
        exact ⟨pos, same, by rw [List.length_cons]; omega⟩

end MpdCli

/-- The remembered insertion is taken for the one of the song with this id. -/
def World.Recalls (w : World) (id : Int) (env : StatusEnv) : Prop :=
  w.cli.m_lastinsertid = id ∧ 0 ≤ w.cli.m_lastinsertpos ∧
    w.cli.m_lastinsertqvers = if env.answered then (w.mpd.vers : Int) else w.cli.m_stat.qvers

instance (w : World) (id : Int) (env : StatusEnv) : Decidable (w.Recalls id env) :=
  inferInstanceAs (Decidable (_ ∧ _ ∧ _))

theorem remembersId_iff {w : World} {env : StatusEnv} (alone : env.Alone) (id : Int) :
    (updStatus w env).1.cli.RemembersId id ↔ w.Recalls id env := by
  obtain ⟨lastid, lastpos, lastqvers⟩ := lastinsert_updStatus w env
  unfold MpdCli.RemembersId World.Recalls
  rw [lastid, lastpos, lastqvers, qvers_updStatus, alone.1]
  rfl

namespace MpdCli

variable {env : InsertAfterEnv} (alone : env.Alone) (w : World) (uri : String) (id : Int)
  (song : UpSong)

/-- The world in which the place is looked for. -/
def asked (w : World) (env : InsertAfterEnv) : World := (updStatus w env.start).1

include alone in
theorem mpd_asked : (asked w env).mpd = w.mpd := by
  unfold asked
  rw [mpd_updStatus, alone.start.1, alone.start.2]
  exact ite_self _

variable {w id}

include alone in
theorem insertAfterId_of_recalls (nonzero : id ≠ 0) (recalls : w.Recalls id env.start) :
    insertAfterId w uri id song env =
      insert (asked w env) uri ((w.cli.m_lastinsertpos.toNat + 1 : Nat) : Int) song env.insert := by
  have place : (asked w env).cli.m_lastinsertpos + 1 =
      ((w.cli.m_lastinsertpos.toNat + 1 : Nat) : Int) := by
    have positive := recalls.2.1
    rw [asked, (lastinsert_updStatus w env.start).2.1]
    omega
  unfold insertAfterId
  rw [if_neg nonzero]
  dsimp only
  rw [if_pos ((remembersId_iff alone.start id).mpr recalls), ← place]
  rfl

include alone in
theorem insertAfterId_of_not_recalls (nonzero : id ≠ 0) (forgotten : ¬ w.Recalls id env.start) :
    insertAfterId w uri id song env =
      if env.list.answered then
        insert (asked w env) uri (posAfterId id 0 w.mpd.queue.songs) song env.insert
      else (0, asked w env) := by
  have same := mpd_asked alone w
  unfold insertAfterId
  rw [if_neg nonzero]
  dsimp only
  rw [if_neg (fun remembers => forgotten ((remembersId_iff alone.start id).mp remembers))]
  unfold insertAfterReading getQueueSongs
  rw [alone.list]
  cases env.list.answered with
  | true =>
      rw [← same]
      rfl
  | false => rfl

end MpdCli

end Upmpdcli
