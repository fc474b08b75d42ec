import Upmpdcli.Lib.Machine
import Upmpdcli.MpdCliInsert

set_option autoImplicit false

namespace Upmpdcli

/-- What the version tells: a queue of the same version has the same ids. -/
def Mpd.Later (before after : Mpd) : Prop :=
  before.vers ≤ after.vers ∧ (before.vers = after.vers → after.queue.ids = before.queue.ids)

namespace Mpd

theorem later_refl (m : Mpd) : m.Later m := ⟨Nat.le_refl _, fun _ => rfl⟩

theorem Later.trans {m m' m'' : Mpd} (first : m.Later m') (second : m'.Later m'') :
    m.Later m'' := by
  refine ⟨Nat.le_trans first.1 second.1, fun same => ?_⟩
  have start := first.1
  have finish := second.1
  rw [second.2 (by omega), first.2 (by omega)]

theorem later_of_lt {m m' : Mpd} (grows : m.vers < m'.vers) : m.Later m' := by
  refine ⟨Nat.le_of_lt grows, fun same => ?_⟩
  omega

theorem later_edited (m : Mpd) (edits : List MpdQueue) : m.Later (m.edited edits) := by
  cases edits with
  | nil => exact later_refl m
  | cons queue rest =>
      apply later_of_lt
      rw [vers_edited, List.length_cons]
      omega

theorem vers_addId {m m' : Mpd} {uri : String} {pos newid id : Nat}
    (added : m.addId uri pos newid = some (id, m')) : m'.vers = m.vers + 1 := by
  obtain ⟨-, queue, -, rfl⟩ := (addId_eq_some_iff m m' uri pos newid id).mp added
  rfl

/-- The new song is where it was to be put. -/
theorem ids_addId {m m' : Mpd} {uri : String} {pos newid id : Nat}
    (added : m.addId uri pos newid = some (id, m')) : m'.queue.ids[pos]? = some id := by
  obtain ⟨rfl, queue, inserted, rfl⟩ := (addId_eq_some_iff m m' uri pos newid id).mp added
  have placed := MpdQueue.getElem?_insertAt inserted
  simp only [MpdQueue.ids, setQueue_queue, List.getElem?_map, placed, Option.map_some]

end Mpd

section Retry

variable {α : Type} {cmd : Nat → Mpd → Option (α × Mpd)}

theorem Attempt.run_some {e : Attempt} {mpd mpd' : Mpd} {result : α}
    (ran : e.run cmd mpd = (some result, mpd')) :
    cmd e.newid (mpd.edited e.edits) = some (result, mpd') := by
  unfold Attempt.run at ran
  dsimp only at ran
  split at ran
  · rename_i executed
    rw [executed]
    simpa only [Option.some.injEq, Prod.mk.injEq] using ran
  · cases ran
  · cases ran

theorem Attempt.later_run (later : ∀ newid m result m',
    cmd newid m = some (result, m') → m.Later m') (e : Attempt) (mpd : Mpd) :
    mpd.Later (e.run cmd mpd).2 := by
  have edited := mpd.later_edited e.edits
  unfold Attempt.run
  dsimp only
  split
  · rename_i executed
    exact edited.trans (later _ _ _ _ executed)
  · rename_i executed
    exact edited.trans (later _ _ _ _ executed)
  · exact edited

/-- A retried command which succeeds was executed on some later queue. -/
theorem retryCmd_success (later : ∀ newid m result m',
    cmd newid m = some (result, m') → m.Later m') {env : CmdEnv} {mpd mpd' : Mpd} {result : α}
    (done : retryCmd env cmd mpd = (.success result, mpd')) :
    ∃ newid m, mpd.Later m ∧ cmd newid m = some (result, mpd') := by
  unfold retryCmd at done
  split at done
  · split at done
    · rename_i first
      cases done
      exact ⟨_, _, mpd.later_edited _, Attempt.run_some first⟩
    · rename_i first
      have before := Attempt.later_run later env.first mpd
      rw [first] at before
      split at done
      · split at done
        · rename_i second
          cases done
          exact ⟨_, _, before.trans (Mpd.later_edited _ _), Attempt.run_some second⟩
        · cases done
      · cases done
  · cases done

theorem later_retryCmd (later : ∀ newid m result m',
    cmd newid m = some (result, m') → m.Later m') (env : CmdEnv) (mpd : Mpd) :
    mpd.Later (retryCmd env cmd mpd).2 := by
  unfold retryCmd
  split
  · have first := Attempt.later_run later env.first mpd
    split
    · rename_i ran
      rwa [ran] at first
    · rename_i ran
      rw [ran] at first
      split
      · have second := first.trans (Attempt.later_run later env.second _)
        split <;> rename_i again <;> rwa [again] at second
      · exact first
  · exact mpd.later_refl

end Retry

namespace MpdCli

theorem later_updStatus (w : World) (env : StatusEnv) :
    w.mpd.Later (updStatus w env).1.mpd := by
  rw [mpd_updStatus]
  have before := w.mpd.later_edited env.before
  split
  · exact before.trans (Mpd.later_edited _ _)
  · exact before

theorem known_updStatus {w : World} (known : w.cli.m_stat.qvers ≤ w.mpd.vers)
    (env : StatusEnv) :
    (updStatus w env).1.cli.m_stat.qvers ≤ (updStatus w env).1.mpd.vers := by
  rw [qvers_updStatus, mpd_updStatus]
  split
  · have during := (Mpd.later_edited (w.mpd.edited env.before) env.during).1
    omega
  · have before := (w.mpd.later_edited env.before).1
    omega

theorem later_sendTagData (cli : MpdCli) (id : Nat) (song : UpSong) (env : List Attempt)
    (mpd : Mpd) : mpd.Later (sendTagData cli id song env mpd) := by
  apply sendTagData_rel Mpd.later_refl (fun _ _ _ => Mpd.Later.trans)
  · intro m m' name value tagged
    apply Mpd.later_of_lt
    rw [(Mpd.addTagId_of_some tagged).2]
    omega
  · exact fun e _ m => m.later_edited e.edits

/-- Without edits by others, tagging moves nothing. -/
theorem ids_sendTagData (cli : MpdCli) (id : Nat) (song : UpSong) (env : List Attempt)
    (mpd : Mpd) (alone : ∀ e ∈ env, e.edits = []) :
    (sendTagData cli id song env mpd).queue.ids = mpd.queue.ids := by
  apply sendTagData_rel (R := fun m m' => m'.queue.ids = m.queue.ids) (fun _ => rfl)
    (fun _ _ _ first second => second.trans first)
  · exact fun m m' name value tagged => (Mpd.addTagId_of_some tagged).1
  · intro e member m
    rw [alone e member]
    rfl

/-- The loop stops at the song it looks for. -/
theorem posAfterId_of_getElem? {songs : List MpdSong} {id : Int} {place : Nat}
    (distinct : (songs.map MpdSong.id).Nodup)
    (found : (songs.map MpdSong.id)[place]?.map Int.ofNat = some id) (start : Nat) :
    posAfterId id start songs = start + place + 1 := by
  induction songs generalizing start place with
  | nil => simp at found
  | cons song rest ih =>
      rw [List.map_cons, List.nodup_cons] at distinct
      unfold posAfterId
      cases place with
      | zero =>
          have first : song.id = unsigned id := by
            simp only [List.map_cons, List.getElem?_cons_zero, Option.map_some,
              Option.some.injEq] at found
            rw [← found]
            rfl
          rw [if_pos (.inl first)]
          omega
      | succ place =>
          simp only [List.map_cons, List.getElem?_cons_succ] at found
          obtain ⟨other, member, same⟩ := Option.map_eq_some_iff.mp found
          have listed := List.mem_of_getElem? member
          have elsewhere : ¬ (song.id = unsigned id ∨ rest = []) := by
            rintro (here | rfl)
            · rw [← same] at here
              exact distinct.1 ((show song.id = other from here) ▸ listed)
            · simp at listed
          rw [if_neg elsewhere, ih distinct.2 found]
          push_cast
          omega

end MpdCli

namespace InsertAct

open MpdCli

/-- What the three remembered values say, as long as no song was lost from sight. -/
structure Remembered (w : World) : Prop where
  known : w.cli.m_stat.qvers ≤ w.mpd.vers
  lastKnown : w.cli.m_lastinsertqvers ≤ w.mpd.vers
  place : 0 ≤ w.cli.m_lastinsertpos → w.cli.m_lastinsertid ≠ -1 →
    w.cli.m_lastinsertqvers = w.mpd.vers → LastInPlace w

/-- What is remembered survives what happens in MPD. -/
theorem Remembered.later {w : World} (remembered : Remembered w) {mpd : Mpd}
    (later : w.mpd.Later mpd) : Remembered { w with mpd := mpd } := by
  have grows := later.1
  refine ⟨?_, ?_, fun positive present current => ?_⟩
  · have known := remembered.known
    dsimp only
    omega
  · have known := remembered.lastKnown
    dsimp only
    omega
  · have known := remembered.lastKnown
    dsimp only at positive present current
    have placed := remembered.place positive present (by omega)
    unfold LastInPlace at placed ⊢
    rwa [later.2 (by omega)]

theorem remembered_updStatus {w : World} (remembered : Remembered w) (env : StatusEnv) :
    Remembered (Upmpdcli.updStatus w env).1 := by
  have same := lastinsert_updStatus w env
  have kept := remembered.later (later_updStatus w env)
  refine ⟨known_updStatus remembered.known env, ?_, ?_⟩
  · rw [same.2.2]
    exact kept.lastKnown
  · rw [same.1, same.2.1, same.2.2]
    intro positive present current
    have placed := kept.place positive present current
    unfold LastInPlace at placed ⊢
    rwa [same.1, same.2.1]

/-- The status which follows an undisturbed insertion knows the queue in which the song is
where it was put; a status which is not obtained leaves an old version behind. -/
theorem lastInPlace_of_told {w : World} (env : StatusEnv)
    (undisturbed : env.answered = true → env.before = [])
    (stale : w.cli.m_stat.qvers < w.mpd.vers)
    (placed : env.answered = true → LastInPlace w)
    (current : (Upmpdcli.updStatus w env).1.cli.m_stat.qvers =
      (Upmpdcli.updStatus w env).1.mpd.vers) :
    LastInPlace (Upmpdcli.updStatus w env).1 := by
  have same := lastinsert_updStatus w env
  rw [qvers_updStatus, mpd_updStatus] at current
  by_cases answered : env.answered = true
  · rw [if_pos answered, if_pos answered, undisturbed answered] at current
    have during := Mpd.later_edited (w.mpd.edited []) env.during
    have ids : ((w.mpd.edited []).edited env.during).queue.ids = w.mpd.queue.ids :=
      during.2 (by omega)
    have there := placed answered
    unfold LastInPlace at there ⊢
    rwa [same.1, same.2.1, mpd_updStatus, if_pos answered, undisturbed answered, ids]
  · rw [if_neg answered, if_neg answered] at current
    have before := (w.mpd.later_edited env.before).1
    omega

/-- An insertion which nobody disturbs leaves what is remembered in order. -/
theorem remembered_insert {w : World} (remembered : Remembered w) (uri : String) (pos : Int)
    (song : UpSong) (env : InsertEnv) (safe : 0 ≤ pos → Undisturbed env) :
    Remembered (MpdCli.insert w uri pos song env).2 := by
  have later (newid : Nat) (m : Mpd) (id : Nat) (m' : Mpd)
      (added : m.addId uri (if pos = -1 then m.queue.songs.length else unsigned pos) newid =
        some (id, m')) : m.Later m' := by
    apply Mpd.later_of_lt
    rw [Mpd.vers_addId added]
    omega
  have sent := later_retryCmd later env.add w.mpd
  unfold MpdCli.insert
  dsimp only
  split
  · rename_i ran
    rw [ran] at sent
    exact remembered.later sent
  · rename_i ran
    rw [ran] at sent
    have kept := remembered.later sent
    exact ⟨kept.known, kept.lastKnown, fun _ absent => absurd rfl absent⟩
  · rename_i id mpd ran
    obtain ⟨newid, m, before, added⟩ := retryCmd_success later ran
    have grows := Mpd.vers_addId added
    have tagged := later_sendTagData w.cli id song env.tags mpd
    have known := remembered.known
    have older := before.1
    have newer := tagged.1
    refine ⟨?_, ?_, fun positive present current => ?_⟩
    · apply known_updStatus
      dsimp only
      omega
    · apply known_updStatus
      dsimp only
      omega
    · have same := lastinsert_updStatus
        (World.mk { w.cli with m_lastinsertid := id, m_lastinsertpos := pos }
          (sendTagData w.cli id song env.tags mpd)) env.status
      dsimp only at positive current
      rw [same.2.1] at positive
      change 0 ≤ pos at positive
      refine lastInPlace_of_told env.status (fun answered => (safe positive answered).2) ?_
        (fun answered => ?_) current
      · dsimp only
        omega
      · have alone := List.all_eq_true.mp (safe positive answered).1
        have ids := ids_sendTagData w.cli id song env.tags mpd
          (fun e member => of_decide_eq_true (alone e member))
        have put := Mpd.ids_addId added
        rw [if_neg (by omega)] at put
        have place : unsigned pos = pos.toNat := by
          unfold unsigned
          rw [if_neg (by omega)]
        simp only [LastInPlace]
        rw [ids, ← place, put]
        rfl

theorem remembered_insertAfterId {w : World} (remembered : Remembered w) (uri : String)
    (id : Int) (song : UpSong) (env : InsertAfterEnv) (safe : Undisturbed env.insert) :
    Remembered (MpdCli.insertAfterId w uri id song env).2 := by
  unfold MpdCli.insertAfterId
  split
  · exact remembered_insert remembered uri 0 song env.insert (fun _ => safe)
  · have asked := remembered_updStatus remembered env.start
    dsimp only
    split
    · exact remembered_insert asked uri _ song env.insert (fun _ => safe)
    · have read := asked.later (Mpd.later_edited _ env.list.edits)
      unfold insertAfterReading getQueueSongs
      by_cases answered : env.list.answered = true
      · simp only [answered, if_true]
        exact remembered_insert read uri _ song env.insert (fun _ => safe)
      · simp only [answered]
        exact read

/-- When the condition of the fast path is true and the status is fresh, the song is in
its place. -/
theorem lastInPlace_of_remembersId {w : World} (remembered : Remembered w) {id : Int}
    (env : StatusEnv)
    (fresh : w.cli.m_lastinsertid = id ∧ 0 ≤ w.cli.m_lastinsertpos →
      id ≠ -1 ∧ env.answered = true ∧ env.during = [])
    (remembers : (Upmpdcli.updStatus w env).1.cli.RemembersId id) :
    LastInPlace (Upmpdcli.updStatus w env).1 := by
  have same := lastinsert_updStatus w env
  have kept := remembered_updStatus remembered env
  obtain ⟨asked, positive, current⟩ := remembers
  have condition := fresh ⟨by rw [← same.1]; exact asked, by rw [← same.2.1]; exact positive⟩
  apply kept.place positive (by rw [asked]; exact condition.1)
  rw [current, qvers_updStatus, mpd_updStatus, if_pos condition.2.1, if_pos condition.2.1,
    condition.2.2]
  rfl

/-- From the place of the song, the fast path does what reading the queue would do. -/
theorem insertAfterId_eq_reading (w : World) (uri : String) (id : Int) (song : UpSong)
    (env : InsertAfterEnv) (nonzero : id ≠ 0)
    (remembers : (Upmpdcli.updStatus w env.start).1.cli.RemembersId id)
    (placed : LastInPlace (Upmpdcli.updStatus w env.start).1) :
    MpdCli.insertAfterId w uri id song env =
      insertAfterReading (Upmpdcli.updStatus w env.start).1 uri id song {} env.insert := by
  unfold MpdCli.insertAfterId
  rw [if_neg nonzero]
  dsimp only
  rw [if_pos remembers]
  generalize (Upmpdcli.updStatus w env.start).1 = asked at remembers placed
  unfold LastInPlace at placed
  rw [remembers.1] at placed
  have position := posAfterId_of_getElem? asked.mpd.queue.distinct placed 0
  have positive := remembers.2.1
  have same : posAfterId id 0 asked.mpd.queue.songs = asked.cli.m_lastinsertpos + 1 := by
    omega
  unfold insertAfterReading getQueueSongs
  simp only [if_true]
  show _ = MpdCli.insert asked uri (posAfterId id 0 asked.mpd.queue.songs) song env.insert
  rw [same]

theorem remembered_step {w next : World} {action : InsertAct} {result : Int}
    (remembered : Remembered w) (safe : Safe w action next result)
    (taken : step w action = some (next, result)) : Remembered next := by
  cases action with
  | insert uri pos song env =>
      cases taken
      exact remembered_insert remembered uri pos song env safe
  | insertAfterId uri id song env =>
      cases taken
      exact remembered_insertAfterId remembered uri id song env safe.1
  | updStatus env =>
      cases taken
      exact remembered_updStatus remembered env
  | edit queue =>
      cases taken
      exact remembered.later (w.mpd.later_edited [queue])

theorem samePlace_of_safe {w next : World} {action : InsertAct} {result : Int}
    (remembered : Remembered w) (safe : Safe w action next result) :
    SamePlace w action next result := by
  cases action with
  | insertAfterId uri id song env =>
      rintro ⟨nonzero, remembers⟩
      have placed := lastInPlace_of_remembersId remembered env.start
        (fun again => safe.2 ⟨nonzero, again⟩) remembers
      exact ⟨placed, insertAfterId_eq_reading w uri id song env nonzero remembers placed⟩
  | insert _ _ _ _ => trivial
  | updStatus _ => trivial
  | edit _ => trivial

/-- Nothing is remembered by a new client. -/
theorem remembered_new (mpd : Mpd) : Remembered { mpd := mpd } := by
  refine ⟨?_, ?_, fun _ absent => absurd rfl absent⟩
  · show (-1 : Int) ≤ mpd.vers
    omega
  · show (-1 : Int) ≤ mpd.vers
    omega

/-- In every history of the queue whose steps meet the condition, `insertAfterId` puts each
song where the slow path would, and only takes the fast path when the remembered song is
where it was put. -/
theorem insertAfterId_samePlace (mpd : Mpd) (actions : List InsertAct)
    (safe : Machine.Along Safe step { mpd := mpd } actions) :
    Machine.Along SamePlace step { mpd := mpd } actions := by
  have preserve (s : World) (a : InsertAct) (t : World) (b : Int) (remembered : Remembered s)
      (safe : Safe s a t b) (taken : step s a = some (t, b)) :
      Remembered t ∧ SamePlace s a t b :=
    ⟨remembered_step remembered safe taken, samePlace_of_safe remembered safe⟩
  exact Machine.along_of_invariant preserve _ actions (remembered_new mpd) safe

/-- Two insertions in a row: the second one takes the fast path. -/
theorem insertAfterId_samePlace_two :
    Machine.Along SamePlace step { mpd := {} }
      [.insertAfterId "http://h/a" 0 {} { insert := { add := { first := { newid := 1 } } } },
       .insertAfterId "http://h/b" 1 {} { insert := { add := { first := { newid := 2 } } } }] :=
  insertAfterId_samePlace {} _ (by decide)

def queueOne : MpdQueue := ⟨[{ id := 1, uri := "http://h/a" }], by decide, by decide⟩

/-- What another client makes of the queue when it puts a song in front. -/
def queueNineFirst : MpdQueue :=
  ⟨[{ id := 9, uri := "http://h/z" }, { id := 1, uri := "http://h/a" },
    { id := 2, uri := "http://h/b" }], by decide, by decide⟩

/-- Another client inserts a song between our insertion and the status which follows it. -/
theorem insertAfterId_misplaced :
    ¬ ∀ (mpd : Mpd) (actions : List InsertAct),
      Machine.Along SamePlace step { mpd := mpd } actions := by
  intro always
  have wrong := always { queue := queueOne }
    [.insertAfterId "http://h/b" 1 {}
      { insert := { add := { first := { newid := 2 } }, status := { before := [queueNineFirst] } } },
     .insertAfterId "http://h/c" 2 {} { insert := { add := { first := { newid := 3 } } } }]
  revert wrong
  decide

end InsertAct

end Upmpdcli
