import Upmpdcli.MpdCliInsertAlone
import Upmpdcli.OHPlaylist

set_option autoImplicit false

/- The law of insertion into the active playlist. -/
namespace Upmpdcli

namespace OHPlaylist

/-- The id is that of a song in the queue, in this place. -/
def IdAt (q : MpdQueue) (id : Int) (place : Nat) : Prop := q.ids[place]?.map Int.ofNat = some id

instance (q : MpdQueue) (id : Int) (place : Nat) : Decidable (IdAt q id place) :=
  inferInstanceAs (Decidable (_ = _))

/-- Where the new song is wanted: at the start, or right behind the song with this id. -/
def Behind (q : MpdQueue) (afterid : Int) (place : Nat) : Prop :=
  afterid = 0 ∧ place = 0 ∨ ∃ before, IdAt q afterid before ∧ place = before + 1

def Listed (q : MpdQueue) (id : Int) : Prop := ∃ place, IdAt q id place

variable (help : PlaylistHelp)

/-- What is sent to MPD when neither the uri nor the format is refused before. -/
def sentToMpd (uri metadata : String) : Option (String × UpSong) :=
  match help.morphSpecialUrl uri with
  | none => none
  | some (uri, nocheck) => (help.checkContentFormat uri metadata nocheck).map fun song => (uri, song)

/-- The law of insertion. MPD accepts the uri when it answers the command and has an id for
the new song. -/
structure InsertLaw (pl : OHPlaylist) (w : World) (afterid : Int) (uri metadata : String)
    (env : ActEnv) : Prop where
  inserts : ∀ place sent newid, Behind w.mpd.queue afterid place →
    (sentToMpd help uri metadata).map Prod.fst = some sent →
    env.insert.insert.add.Answers newid → w.mpd.queue.Fresh newid →
      (pl.insert help w (some (afterid, uri, metadata)) env).1 = .success ∧
      (pl.insert help w (some (afterid, uri, metadata)) env).2.1 = some (newid : Int) ∧
      w.mpd.queue.Inserted (pl.insert help w (some (afterid, uri, metadata)) env).2.2.2.mpd.queue
        place newid sent
  refuses : afterid ≠ 0 → ¬ Listed w.mpd.queue afterid →
    (pl.insert help w (some (afterid, uri, metadata)) env).1 ≠ .success ∧
    (pl.insert help w (some (afterid, uri, metadata)) env).2.2.2.mpd.queue = w.mpd.queue

/-- The condition under which an insertion which is sent to MPD obeys the law. -/
structure InsertSafe (w : World) (afterid : Int) (env : InsertAfterEnv) : Prop where
  listed : Listed w.mpd.queue afterid →
    (∃ newid, env.insert.add.Answers newid ∧ w.mpd.queue.Fresh newid) →
      if w.Recalls afterid env.start then IdAt w.mpd.queue afterid w.cli.m_lastinsertpos.toNat
      else env.list.answered = true
  absent : afterid ≠ 0 → ¬ Listed w.mpd.queue afterid →
    if w.Recalls afterid env.start then
      ¬ (w.cli.m_lastinsertpos.toNat + 1 ≤ w.mpd.queue.songs.length ∧
        env.insert.add.Takes w.mpd.queue.Fresh)
    else env.list.answered = true ∧ ¬ env.insert.add.Takes w.mpd.queue.Fresh

variable {pl : OHPlaylist} {w : World} {afterid : Int} {uri metadata : String} {env : ActEnv}

theorem insert_of_not_sent (w : World) (afterid : Int) (env : ActEnv) (active : pl.m_active = true)
    (refused : sentToMpd help uri metadata = none) :
    (pl.insert help w (some (afterid, uri, metadata)) env).1 ≠ .success ∧
      (pl.insert help w (some (afterid, uri, metadata)) env).2.2.2 = w := by
  cases morphed : help.morphSpecialUrl uri with
  | none =>
      simp only [insert, morphed]
      exact ⟨by simp, trivial⟩
  | some sending =>
      simp only [sentToMpd, morphed] at refused
      have unsupported := Option.map_eq_none_iff.mp refused
      simp only [insert, morphed, active, if_true, insertUri, startInsert, unsupported]
      exact ⟨by simp, trivial⟩

theorem insert_of_sent (w : World) (afterid : Int) (env : ActEnv) (active : pl.m_active = true)
    {sent : String} {song : UpSong} (sends : sentToMpd help uri metadata = some (sent, song)) :
    (pl.insert help w (some (afterid, uri, metadata)) env).1 =
        (if (MpdCli.insertAfterId w sent afterid song env.insert).1 ≠ -1 then .success
        else .internalError) ∧
      (pl.insert help w (some (afterid, uri, metadata)) env).2.1 =
        (if (MpdCli.insertAfterId w sent afterid song env.insert).1 ≠ -1 then
          some (MpdCli.insertAfterId w sent afterid song env.insert).1
        else none) ∧
      (pl.insert help w (some (afterid, uri, metadata)) env).2.2.2 =
        (MpdCli.insertAfterId w sent afterid song env.insert).2 := by
  cases morphed : help.morphSpecialUrl uri with
  | none =>
      simp only [sentToMpd, morphed] at sends
      cases sends
  | some sending =>
      obtain ⟨morphedUri, nocheck⟩ := sending
      simp only [sentToMpd, morphed] at sends
      obtain ⟨_, supported, same⟩ := Option.map_eq_some_iff.mp sends
      cases same
      simp only [insert, morphed, active, if_true, insertUri, startInsert, supported, cacheSet]
      by_cases failed : (MpdCli.insertAfterId w sent afterid song env.insert).1 = -1
      · simp [failed]
      · simp [failed]

theorem idAt_iff {q : MpdQueue} {id : Int} {place : Nat} :
    IdAt q id place ↔ ∃ n, q.ids[place]? = some n ∧ (n : Int) = id := by
  unfold IdAt
  rw [Option.map_eq_some_iff]
  rfl

/-- No song has the id 0. -/
theorem ne_zero_of_listed {q : MpdQueue} {id : Int} (listed : Listed q id) : id ≠ 0 := by
  obtain ⟨place, there⟩ := listed
  obtain ⟨n, found, rfl⟩ := idAt_iff.mp there
  obtain ⟨song, member, rfl⟩ := List.mem_map.mp (List.mem_of_getElem? found)
  have numbered := q.numbered song member
  omega

theorem place_le_of_idAt {q : MpdQueue} {id : Int} {place : Nat} (there : IdAt q id place) :
    place + 1 ≤ q.songs.length := by
  obtain ⟨n, found, -⟩ := idAt_iff.mp there
  have within := (List.getElem?_eq_some_iff.mp found).1
  rwa [MpdQueue.ids, List.length_map] at within

theorem place_unique {q : MpdQueue} {id : Int} {place other : Nat} (there : IdAt q id place)
    (again : IdAt q id other) : place = other := by
  obtain ⟨n, found, rfl⟩ := idAt_iff.mp there
  obtain ⟨m, found', same⟩ := idAt_iff.mp again
  have within := (List.getElem?_eq_some_iff.mp found).1
  have ids : q.ids[place]? = q.ids[other]? := by
    rw [found, found', Int.ofNat_inj.mp same]
  exact (List.getElem?_inj within q.distinct).mp ids

section Law

variable {sent : String} {song : UpSong}

/-- What the law wants of `insertAfterId`. -/
theorem insertLaw_iff_of_sent (active : pl.m_active = true)
    (sends : sentToMpd help uri metadata = some (sent, song)) :
    InsertLaw help pl w afterid uri metadata env ↔
      (∀ place newid, Behind w.mpd.queue afterid place → env.insert.insert.add.Answers newid →
        w.mpd.queue.Fresh newid →
          (MpdCli.insertAfterId w sent afterid song env.insert).1 = newid ∧
          w.mpd.queue.Inserted (MpdCli.insertAfterId w sent afterid song env.insert).2.mpd.queue
            place newid sent) ∧
      (afterid ≠ 0 → ¬ Listed w.mpd.queue afterid →
        (MpdCli.insertAfterId w sent afterid song env.insert).1 = -1 ∧
        (MpdCli.insertAfterId w sent afterid song env.insert).2.mpd.queue = w.mpd.queue) := by
  obtain ⟨code, newId, world⟩ := insert_of_sent help w afterid env active sends
  constructor
  · rintro ⟨inserts, refuses⟩
    rw [code, newId, world, sends] at inserts
    rw [code, world] at refuses
    refine ⟨fun place newid behind answers fresh => ?_, fun nonzero absent => ?_⟩
    · obtain ⟨-, told, inserted⟩ := inserts place sent newid behind rfl answers fresh
      split at told
      · exact ⟨Option.some.inj told, inserted⟩
      · cases told
    · obtain ⟨failed, same⟩ := refuses nonzero absent
      refine ⟨?_, same⟩
      by_contra done
      rw [if_pos done] at failed
      exact failed rfl
  · rintro ⟨inserts, refuses⟩
    refine ⟨fun place other newid behind same answers fresh => ?_, fun nonzero absent => ?_⟩
    · rw [sends] at same
      cases same
      obtain ⟨told, inserted⟩ := inserts place newid behind answers fresh
      rw [code, newId, world, told, if_pos (by omega), if_pos (by omega)]
      exact ⟨rfl, rfl, inserted⟩
    · obtain ⟨failed, same⟩ := refuses nonzero absent
      rw [code, world, failed]
      exact ⟨by simp, same⟩

variable (alone : env.insert.Alone)

include alone in
/-- An accepted song is in the place where it is wanted exactly when it was put there. -/
theorem inserted_iff {pos place newid : Nat} (within : place ≤ w.mpd.queue.songs.length)
    (answers : env.insert.insert.add.Answers newid) (fresh : w.mpd.queue.Fresh newid)
    {asked : World} (same : asked.mpd = w.mpd) :
    ((MpdCli.insert asked sent pos song env.insert.insert).1 = newid ∧
      w.mpd.queue.Inserted (MpdCli.insert asked sent pos song env.insert.insert).2.mpd.queue
        place newid sent) ↔ pos = place := by
  rw [← same] at within fresh ⊢
  constructor
  · rintro ⟨told, inserted⟩
    by_cases fits : pos ≤ asked.mpd.queue.songs.length
    · have put := MpdCli.insert_of_answers alone.insert asked sent song fresh fits answers
      exact (MpdQueue.place_of_inserted fits put.2 inserted).symm
    · have refused := MpdCli.insert_of_not_takes alone.insert asked sent song pos
        (fun takes => fits takes.1)
      rw [refused.1] at told
      omega
  · rintro rfl
    exact MpdCli.insert_of_answers alone.insert asked sent song fresh within answers

include alone in
/-- The queue is unchanged exactly when MPD does not execute the command. -/
theorem refused_iff {pos : Nat} {asked : World} (same : asked.mpd = w.mpd) :
    ((MpdCli.insert asked sent pos song env.insert.insert).1 = -1 ∧
      (MpdCli.insert asked sent pos song env.insert.insert).2.mpd.queue = w.mpd.queue) ↔
    ¬ (pos ≤ w.mpd.queue.songs.length ∧ env.insert.insert.add.Takes w.mpd.queue.Fresh) := by
  rw [← same]
  constructor
  · rintro ⟨-, unchanged⟩ ⟨fits, takes⟩
    exact MpdCli.insert_of_takes alone.insert asked sent song fits takes unchanged
  · exact MpdCli.insert_of_not_takes alone.insert asked sent song pos

include alone in
/-- Behind a song of the queue. -/
theorem inserts_iff_of_listed {before : Nat} (there : IdAt w.mpd.queue afterid before) :
    (∀ place newid, Behind w.mpd.queue afterid place → env.insert.insert.add.Answers newid →
      w.mpd.queue.Fresh newid →
        (MpdCli.insertAfterId w sent afterid song env.insert).1 = newid ∧
        w.mpd.queue.Inserted (MpdCli.insertAfterId w sent afterid song env.insert).2.mpd.queue
          place newid sent) ↔
      ((∃ newid, env.insert.insert.add.Answers newid ∧ w.mpd.queue.Fresh newid) →
        if w.Recalls afterid env.insert.start then
          IdAt w.mpd.queue afterid w.cli.m_lastinsertpos.toNat
        else env.insert.list.answered = true) := by
  have nonzero := ne_zero_of_listed ⟨before, there⟩
  have same := MpdCli.mpd_asked alone w
  have within := place_le_of_idAt there
  have behind (place : Nat) : Behind w.mpd.queue afterid place ↔ place = before + 1 := by
    constructor
    · rintro (⟨zero, -⟩ | ⟨other, also, rfl⟩)
      · exact absurd zero nonzero
      · rw [place_unique there also]
    · rintro rfl
      exact .inr ⟨before, there, rfl⟩
  simp only [behind]
  by_cases recalls : w.Recalls afterid env.insert.start
  · rw [MpdCli.insertAfterId_of_recalls alone sent song nonzero recalls, if_pos recalls]
    constructor
    · rintro inserts ⟨newid, answers, fresh⟩
      have put := (inserted_iff alone within answers fresh same).mp
        (inserts _ newid rfl answers fresh)
      rwa [show w.cli.m_lastinsertpos.toNat = before by omega]
    · rintro remembered place newid rfl answers fresh
      apply (inserted_iff alone within answers fresh same).mpr
      rw [place_unique there (remembered ⟨newid, answers, fresh⟩)]
  · rw [MpdCli.insertAfterId_of_not_recalls alone sent song nonzero recalls, if_neg recalls]
    constructor
    · rintro inserts ⟨newid, answers, fresh⟩
      by_contra unanswered
      have put := (inserts _ newid rfl answers fresh).1
      rw [if_neg unanswered] at put
      have positive := fresh.2.1
      dsimp only at put
      omega
    · rintro answered place newid rfl answers fresh
      have position := MpdCli.posAfterId_of_getElem? w.mpd.queue.distinct there 0
      rw [if_pos (answered ⟨newid, answers, fresh⟩),
        show MpdCli.posAfterId afterid 0 w.mpd.queue.songs = ((before + 1 : Nat) : Int) by
          rw [position]; omega]
      exact (inserted_iff alone within answers fresh same).mpr rfl

include alone in
/-- Behind no song of the queue. -/
theorem refuses_iff_of_absent (nonzero : afterid ≠ 0) :
    ((MpdCli.insertAfterId w sent afterid song env.insert).1 = -1 ∧
      (MpdCli.insertAfterId w sent afterid song env.insert).2.mpd.queue = w.mpd.queue) ↔
    if w.Recalls afterid env.insert.start then
      ¬ (w.cli.m_lastinsertpos.toNat + 1 ≤ w.mpd.queue.songs.length ∧
        env.insert.insert.add.Takes w.mpd.queue.Fresh)
    else env.insert.list.answered = true ∧
      ¬ env.insert.insert.add.Takes w.mpd.queue.Fresh := by
  have same := MpdCli.mpd_asked alone w
  by_cases recalls : w.Recalls afterid env.insert.start
  · rw [MpdCli.insertAfterId_of_recalls alone sent song nonzero recalls, if_pos recalls]
    exact refused_iff alone same
  · rw [MpdCli.insertAfterId_of_not_recalls alone sent song nonzero recalls, if_neg recalls]
    obtain ⟨pos, position, within⟩ := MpdCli.posAfterId_le afterid 0 w.mpd.queue.songs
    rw [position]
    by_cases answered : env.insert.list.answered = true
    · rw [if_pos answered]
      refine (refused_iff alone same).trans ?_
      rw [Nat.zero_add] at within
      simp only [within, answered, true_and]
    · rw [if_neg answered]
      constructor
      · rintro ⟨failed, -⟩
        exact absurd failed (show ¬ (0 : Int) = -1 by decide)
      · exact fun both => absurd both.1 answered

/-- Insertion obeys its law exactly when the condition is met. -/
theorem insertLaw_iff (active : pl.m_active = true) (alone : env.insert.Alone) :
    InsertLaw help pl w afterid uri metadata env ↔
      ((sentToMpd help uri metadata).isSome = true → InsertSafe w afterid env.insert) := by
  cases sends : sentToMpd help uri metadata with
  | none =>
      obtain ⟨failed, same⟩ := insert_of_not_sent help w afterid env active sends
      have law : InsertLaw help pl w afterid uri metadata env := by
        refine ⟨fun _ _ _ _ sent => ?_, fun _ _ => ⟨failed, by rw [same]⟩⟩
        rw [sends] at sent
        cases sent
      simp only [law, Option.isSome_none, Bool.false_eq_true, false_implies]
  | some sending =>
      obtain ⟨sent, song⟩ := sending
      rw [insertLaw_iff_of_sent help active sends]
      simp only [Option.isSome_some, forall_const]
      constructor
      · rintro ⟨inserts, refuses⟩
        refine ⟨fun ⟨before, there⟩ => ?_, fun nonzero absent => ?_⟩
        · exact (inserts_iff_of_listed alone there).mp inserts
        · exact (refuses_iff_of_absent alone nonzero).mp (refuses nonzero absent)
      · rintro ⟨listed, absent⟩
        refine ⟨?_, fun nonzero missing =>
          (refuses_iff_of_absent alone nonzero).mpr (absent nonzero missing)⟩
        rintro place newid (⟨rfl, rfl⟩ | ⟨before, there, rfl⟩) answers fresh
        · exact (inserted_iff alone (Nat.zero_le _) answers fresh rfl).mpr rfl
        · exact (inserts_iff_of_listed alone there).mpr (listed ⟨before, there⟩) _ newid
            (.inr ⟨before, there, rfl⟩) answers fresh

end Law

/-- MPD accepts a second song. -/
def acceptsTwo : ActEnv := { insert := { insert := { add := { first := { newid := 2 } } } } }

theorem alone_acceptsTwo : acceptsTwo.insert.Alone :=
  ⟨⟨rfl, rfl⟩, rfl, ⟨⟨rfl, rfl⟩, by simp [acceptsTwo], ⟨rfl, rfl⟩⟩⟩

theorem insertLaw_behind_first :
    InsertLaw .plain {} { mpd := { queue := InsertAct.queueOne } } 1 "http://h/b" "" acceptsTwo := by
  apply (insertLaw_iff .plain rfl alone_acceptsTwo).mpr
  refine fun _ => ⟨fun _ _ => ?_, fun _ missing => absurd ⟨0, rfl⟩ missing⟩
  rw [if_neg (by decide)]
  rfl

/-- A song which is wanted behind one that is not there goes to the end of the queue. -/
theorem insert_not_lawful :
    ¬ ∀ (help : PlaylistHelp) (pl : OHPlaylist) (w : World) (afterid : Int)
      (uri metadata : String) (env : ActEnv), pl.m_active = true → env.insert.Alone →
        InsertLaw help pl w afterid uri metadata env := by
  intro always
  have law := always .plain {} { mpd := { queue := InsertAct.queueOne } } 7 "http://h/b" ""
    acceptsTwo rfl alone_acceptsTwo
  have absent : ¬ Listed InsertAct.queueOne 7 := by
    rintro ⟨place, there⟩
    obtain ⟨n, found, same⟩ := idAt_iff.mp there
    have first : n = 1 := List.mem_singleton.mp (List.mem_of_getElem? found)
    omega
  exact (law.refuses (by decide) absent).1 (by decide)

end OHPlaylist

end Upmpdcli
