import Upmpdcli.AVTransportState

set_option autoImplicit false

/- The songs of AVTransport among those of others, in a queue which is not its own. -/
namespace Upmpdcli

/-- Nobody else edits the queue during the action. -/
structure SetUriEnv.Undisturbed (env : SetUriEnv) : Prop where
  alone : env.Alone
  insert : env.insert.Alone
  play : env.play.cmd.Alone ∧ env.play.status.Alone
  pause : env.pause.Alone
  stop : env.stop.Alone
  clean : ∀ e ∈ env.clean, e.2.Alone

/-- The service and MPD. `own` has the ids of the songs of the queue which the service has
inserted. -/
structure SharedQueueRun where
  avt : AVTransport := {}
  w : World := {}
  own : List Nat := []

/-- An action, an edit by other clients or services with whatever else happens between two
actions, and a restart of MPD, or a queue which a service has saved and restores. Of each song
of the new queue `origin` tells which id it had, if it was in the old one. -/
inductive SharedQueueAct
  | setUri (setnext : Bool) (uri metadata : Option String)
      (env : {env : SetUriEnv // env.Undisturbed})
  | edit (w : World)
  | restart (w : World) (origin : Nat → Option Nat)

namespace SharedQueueRun

def ids (s : SharedQueueRun) : List Nat := s.w.mpd.queue.ids

/-- The ids which the service is going to clean up. -/
def remembered (s : SharedQueueRun) : List Nat := s.avt.m_songids.map unsigned

section Model

variable (help : PlaylistHelp) (opts : AvtOptions)

/-- A song which is new after the action is one it has inserted. -/
def setUri (s : SharedQueueRun) (setnext : Bool) (uri metadata : Option String) (env : SetUriEnv) :
    SharedQueueRun × UpnpCode :=
  let (code, avt, w) := s.avt.setAVTransportURI help opts s.w setnext uri metadata env
  ({ avt, w, own := w.mpd.queue.ids.filter fun id => id ∈ s.own ∨ id ∉ s.ids }, code)

/-- A song which stays keeps its id. -/
def edit (s : SharedQueueRun) (w : World) : SharedQueueRun :=
  { s with w, own := w.mpd.queue.ids.filter fun id => id ∈ s.own }

def restart (s : SharedQueueRun) (w : World) (origin : Nat → Option Nat) : SharedQueueRun :=
  { s with w, own := w.mpd.queue.ids.filter fun id => (origin id).any (· ∈ s.own) }

def step (s : SharedQueueRun) : SharedQueueAct → Option (SharedQueueRun × UpnpCode)
  | .setUri setnext uri metadata env => some (s.setUri help opts setnext uri metadata env.1)
  | .edit w => some (s.edit w, .success)
  | .restart w origin => some (s.restart w origin, .success)

/-- The songs of others are still there after an action, and the earlier songs of the service
are not when it has set a new current track. -/
def LeavesForeign (s : SharedQueueRun) (action : SharedQueueAct) (t : SharedQueueRun)
    (code : UpnpCode) : Prop :=
  match action with
  | .setUri setnext _ _ _ =>
      (∀ id ∈ s.ids, id ∉ s.own → id ∈ t.ids) ∧
        (setnext = false → code = .success → ∀ id ∈ s.own, id ∉ t.ids)
  | .edit _ | .restart _ _ => True

/-- An insertion which MPD executes is answered, and made once. -/
def InsertsOnce (s : SharedQueueRun) (setnext : Bool) (env : SetUriEnv) : Prop :=
  AVTransport.insertPlace opts s.w setnext ≤ s.w.mpd.queue.songs.length →
    env.insert.add.Takes s.w.mpd.queue.Fresh →
      ∃ newid, s.w.mpd.queue.Fresh newid ∧ env.insert.add.Answers newid

/-- Each old song which is still in the queue is found, and MPD gets its deletion. -/
def Cleans (s : SharedQueueRun) (env : SetUriEnv) : Prop :=
  ∀ (place : Nat) (id : Int), s.avt.m_songids[place]? = some id → unsigned id ∈ s.ids →
    ∃ e, env.clean[place]? = some e ∧ e.1 = true ∧ e.2.Reaches

/-- The condition on each step. A song which gets a new id gets one which the service remembers
exactly if it is one of the service. -/
def Safe (s : SharedQueueRun) (action : SharedQueueAct) (_ : SharedQueueRun) (_ : UpnpCode) :
    Prop :=
  match action with
  | .setUri setnext uri metadata env =>
      AVTransport.accepts help uri metadata = true → ¬ (setnext = true ∧ s.w.cli.m_stat.qlen = 0) →
        s.InsertsOnce opts setnext env.1 ∧ (setnext = false → s.Cleans env.1)
  | .edit w => ∀ id ∈ w.mpd.queue.ids, id ∉ s.ids → id ∉ s.remembered
  | .restart w origin =>
      ∀ id ∈ w.mpd.queue.ids, id ∈ s.remembered ↔ (origin id).any (· ∈ s.own) = true

end Model

/-- The service remembers its own songs and no others of those in the queue. -/
structure Remembers (s : SharedQueueRun) : Prop where
  there : ∀ id ∈ s.own, id ∈ s.ids
  remembered : ∀ id ∈ s.ids, id ∈ s.remembered ↔ id ∈ s.own

end SharedQueueRun

namespace Mpd

variable {m m' : Mpd}

theorem queue_playPos {pos : Nat} (played : m.playPos pos = some m') : m'.queue = m.queue := by
  unfold playPos at played
  split at played
  · cases played
    rfl
  · cases played

theorem queue_play {start : Nat} (played : m.play start = some m') : m'.queue = m.queue := by
  unfold play at played
  split at played
  · cases played
    rfl
  · split at played
    · cases played
      rfl
    · exact queue_playPos played

theorem mem_ids_deleteId {id : Nat} (deleted : m.deleteId id = some m') (other : Nat) :
    other ∈ m'.queue.ids ↔ other ∈ m.queue.ids ∧ other ≠ id := by
  have there : id ∈ m.queue.ids := by
    by_contra absent
    unfold deleteId at deleted
    rw [List.idxOf?_eq_none_iff.mpr absent] at deleted
    cases deleted
  obtain ⟨_, same, gone⟩ := deleted_deleteId there
  cases deleted.symm.trans same
  unfold MpdQueue.ids
  rw [gone.songs]
  simp only [List.mem_map, List.mem_filter, List.mem_singleton, decide_not, Bool.not_eq_true',
    decide_eq_false_iff_not]
  constructor
  · rintro ⟨song, ⟨member, differs⟩, rfl⟩
    exact ⟨⟨song, member, rfl⟩, differs⟩
  · rintro ⟨⟨song, member, rfl⟩, differs⟩
    exact ⟨song, ⟨member, differs⟩, rfl⟩

end Mpd

namespace MpdCli

section Command

variable {env : CmdEnv} (alone : env.Alone) (w : World)

include alone

/-- A command which has nothing to do with the queue. -/
theorem queue_command {cmd : Nat → Mpd → Option Mpd}
    (keeps : ∀ newid m m', cmd newid m = some m' → m'.queue = m.queue) :
    (command w env cmd).2.mpd.queue = w.mpd.queue := by
  rw [command_eq]
  refine retryCmd_rel (R := fun m m' => m'.queue = m.queue) _ (fun _ => rfl)
    (fun _ _ _ first second => second.trans first) alone ?_ w.mpd
  intro newid m result m' ran
  obtain ⟨m'', done, same⟩ := Option.map_eq_some_iff.mp ran
  cases same
  exact keeps newid m m' done

/-- A deletion takes no other song away. -/
theorem kept_deleteId (id : Int) (other : Nat) :
    (other ∈ (deleteId w id env).2.mpd.queue.ids → other ∈ w.mpd.queue.ids) ∧
      (other ≠ unsigned id → other ∈ w.mpd.queue.ids →
        other ∈ (deleteId w id env).2.mpd.queue.ids) := by
  unfold deleteId
  rw [command_eq]
  refine retryCmd_rel (R := fun m m' => (other ∈ m'.queue.ids → other ∈ m.queue.ids) ∧
    (other ≠ unsigned id → other ∈ m.queue.ids → other ∈ m'.queue.ids)) _
    (fun _ => ⟨fun there => there, fun _ there => there⟩) ?_ alone ?_ w.mpd
  · intro m m' m'' first second
    exact ⟨fun there => first.1 (second.1 there),
      fun differs there => second.2 differs (first.2 differs there)⟩
  · intro newid m result m' ran
    obtain ⟨m'', deleted, same⟩ := Option.map_eq_some_iff.mp ran
    cases same
    have kept := Mpd.mem_ids_deleteId deleted other
    exact ⟨fun there => (kept.mp there).1, fun differs there => kept.mpr ⟨there, differs⟩⟩

/-- A deletion which MPD gets. -/
theorem gone_deleteId (reaches : env.Reaches) (id : Int) :
    unsigned id ∉ (deleteId w id env).2.mpd.queue.ids := by
  by_cases there : unsigned id ∈ w.mpd.queue.ids
  · let cmd (_ : Nat) (mpd : Mpd) : Option (Unit × Mpd) :=
      (mpd.deleteId (unsigned id)).map fun mpd => ((), mpd)
    have gone (newid : Nat) {m m' : Mpd} {result : Unit}
        (ran : cmd newid m = some (result, m')) : unsigned id ∉ m'.queue.ids := by
      obtain ⟨m'', deleted, same⟩ := Option.map_eq_some_iff.mp ran
      cases same
      exact fun there => ((Mpd.mem_ids_deleteId deleted _).mp there).2 rfl
    have executed (newid : Nat) : cmd newid w.mpd ≠ none := by
      obtain ⟨m, deleted, -⟩ := Mpd.deleted_deleteId there
      show (w.mpd.deleteId (unsigned id)).map _ ≠ none
      rw [deleted]
      exact Option.some_ne_none _
    have takes : env.Takes fun newid => cmd newid w.mpd ≠ none :=
      ⟨reaches.1, reaches.2.imp (fun first => ⟨first.1, executed env.first.newid⟩)
        fun second => ⟨second.1, second.2.1, second.2.2.1, executed env.second.newid⟩⟩
    unfold deleteId
    rw [command_eq]
    exact retryCmd_of_takes cmd (fun m => unsigned id ∉ m.queue.ids) alone
      (fun newid _ _ _ ran => gone newid ran) (fun newid _ _ _ _ ran => gone newid ran) takes
  · exact fun later => there ((kept_deleteId alone w id _).1 later)

end Command

theorem queue_play {env : PlayEnv} (alone : env.cmd.Alone) (quiet : env.status.Alone) (w : World)
    (pos : Int) : (play w pos env).2.mpd.queue = w.mpd.queue := by
  let cmd (start : Nat) (mpd : Mpd) : Option Mpd :=
    if pos ≥ 0 then mpd.playPos (unsigned pos) else mpd.play start
  have same : (command w env.cmd cmd).2.mpd.queue = w.mpd.queue := by
    refine queue_command alone w fun start m m' played => ?_
    dsimp only [cmd] at played
    split at played
    · exact Mpd.queue_playPos played
    · exact Mpd.queue_play played
  unfold play
  dsimp only
  split <;> rename_i ran <;> rw [ran] at same
  · exact same
  · rw [mpd_updStatus, quiet.1, quiet.2]
    exact (congrArg Mpd.queue (ite_self _)).trans same

end MpdCli

namespace AVTransport

theorem mem_addSongid {songids : List Int} {id other : Int} :
    other ∈ addSongid songids id ↔ other = id ∨ other ∈ songids := by
  unfold addSongid
  split
  · rename_i there
    exact ⟨.inr, fun either => either.elim (fun same => same ▸ there) fun member => member⟩
  · exact List.mem_orderedInsert _

theorem queue_startTrack {env : SetUriEnv} (quiet : env.Undisturbed) (opts : AvtOptions)
    (w : World) (st : PlayState) (curpos : Nat) :
    (startTrack opts w st curpos env).mpd.queue = w.mpd.queue := by
  have played := MpdCli.queue_play quiet.play.1 quiet.play.2 w curpos
  unfold startTrack
  split
  · exact played
  · cases st with
    | play => exact played
    | pause =>
        refine MpdCli.queue_command quiet.pause w ?_
        rintro newid m m' ⟨⟩
        rfl
    | stop =>
        refine MpdCli.queue_command quiet.stop w ?_
        rintro newid m m' ⟨⟩
        rfl
    | unk => rfl

section Clean

variable {envs : List (Bool × CmdEnv)} (quiet : ∀ e ∈ envs, e.2.Alone) (other : Nat)

include quiet

/-- The clean up takes no other songs away. -/
theorem kept_cleanSongids (w : World) (songids : List Int) :
    (other ∈ (cleanSongids w songids envs).mpd.queue.ids → other ∈ w.mpd.queue.ids) ∧
      (other ∉ songids.map unsigned → other ∈ w.mpd.queue.ids →
        other ∈ (cleanSongids w songids envs).mpd.queue.ids) := by
  induction songids generalizing w envs with
  | nil => exact ⟨fun there => there, fun _ there => there⟩
  | cons id rest ih =>
      match envs with
      | [] => exact ⟨fun there => there, fun _ there => there⟩
      | (answered, env) :: envs =>
          obtain ⟨alone, later⟩ := List.forall_mem_cons.mp quiet
          obtain ⟨lost, stays⟩ := MpdCli.kept_deleteId alone w id other
          rw [List.map_cons, List.mem_cons, not_or]
          unfold cleanSongids
          by_cases found : MpdCli.statId w id answered = true
          · rw [if_pos found]
            obtain ⟨lost', stays'⟩ := ih later (MpdCli.deleteId w id env).2
            exact ⟨fun there => lost (lost' there),
              fun differs there => stays' differs.2 (stays differs.1 there)⟩
          · rw [if_neg found]
            obtain ⟨lost', stays'⟩ := ih later w
            exact ⟨lost', fun differs there => stays' differs.2 there⟩

/-- A song which is found goes away when MPD gets its deletion. -/
theorem gone_cleanSongids (w : World) {songids : List Int}
    (cleans : ∀ (place : Nat) (id : Int), songids[place]? = some id → unsigned id = other →
      ∃ e, envs[place]? = some e ∧ e.1 = true ∧ e.2.Reaches)
    (member : other ∈ songids.map unsigned) :
    other ∉ (cleanSongids w songids envs).mpd.queue.ids := by
  induction songids generalizing w envs with
  | nil => exact nomatch member
  | cons id rest ih =>
      have cleans' (place : Nat) := cleans (place + 1)
      match envs with
      | [] =>
          obtain ⟨id', there, same⟩ := List.mem_map.mp member
          obtain ⟨place, at_⟩ := List.getElem?_of_mem there
          obtain ⟨e, absurd, -⟩ := cleans place id' at_ same
          cases absurd
      | (answered, env) :: envs =>
          obtain ⟨alone, later⟩ := List.forall_mem_cons.mp quiet
          unfold cleanSongids
          by_cases here : unsigned id = other
          · obtain ⟨e, same, looked, reaches⟩ := cleans 0 id rfl here
            cases same
            refine fun there => ?_
            have before := (kept_cleanSongids later other _ rest).1 there
            cases looked
            by_cases found : MpdCli.statId w id true = true
            · rw [if_pos found, ← here] at before
              exact MpdCli.gone_deleteId alone w reaches id before
            · rw [if_neg found, ← here] at before
              refine found ?_
              unfold MpdCli.statId
              rw [Bool.true_and]
              exact List.contains_iff_mem.mpr before
          · refine ih later _ cleans' ?_
            exact (List.mem_cons.mp member).resolve_left fun same => here same.symm

end Clean

end AVTransport

theorem MpdQueue.mem_ids_of_inserted {q q' : MpdQueue} {place newid : Nat} {uri : String}
    (within : place ≤ q.songs.length) (inserted : q.Inserted q' place newid uri) (other : Nat) :
    other ∈ q'.ids ↔ other = newid ∨ other ∈ q.ids := by
  obtain ⟨song, rfl, -, songs⟩ := inserted
  have inside : place ≤ q.ids.length := by
    rw [MpdQueue.length_ids]
    exact within
  have ids : q'.ids = q.ids.insertIdx place song.id := by
    rw [MpdQueue.ids, songs, List.map_insertIdx]
    rfl
  rw [ids]
  exact List.mem_insertIdx inside

theorem unsigned_of_fresh {q : MpdQueue} {newid : Nat} (fresh : q.Fresh newid) :
    unsigned (newid : Int) = newid := by
  have small := fresh.2.2
  unfold unsigned
  split <;> omega

namespace SharedQueueRun

/-- What an action does to the queue and to the ids which are remembered. -/
inductive Changed (s : SharedQueueRun) : Bool → UpnpCode → AVTransport → World → Prop
  | refused {setnext : Bool} {code : UpnpCode} {w : World} (failed : code ≠ .success)
      (same : w.mpd.queue = s.w.mpd.queue) : Changed s setnext code s.avt w
  | next {avt : AVTransport} {w : World} (newid : Nat) (fresh : newid ∉ s.ids)
      (remembers : ∀ id, id ∈ avt.m_songids.map unsigned ↔ id = newid ∨ id ∈ s.remembered)
      (ids : ∀ id, id ∈ w.mpd.queue.ids ↔ id = newid ∨ id ∈ s.ids) : Changed s true .success avt w
  | current {avt : AVTransport} {w : World} (newid : Nat) (fresh : newid ∉ s.ids)
      (remembers : avt.m_songids.map unsigned = [newid])
      (gained : ∀ id ∈ w.mpd.queue.ids, id = newid ∨ id ∈ s.ids)
      (kept : ∀ id ∈ s.ids, id ∉ s.remembered → id ∈ w.mpd.queue.ids)
      (gone : ∀ id ∈ s.ids, id ∈ s.remembered → id ∉ w.mpd.queue.ids) :
      Changed s false .success avt w

section Action

variable {help : PlaylistHelp} {opts : AvtOptions} {s : SharedQueueRun} {setnext : Bool}
  {env : SetUriEnv}

/-- The insertion, in a world which has the queue of the run. -/
theorem insert_cases (quiet : env.Undisturbed) (once : s.InsertsOnce opts setnext env) {w : World}
    (same : w.mpd.queue = s.w.mpd.queue) (uri : String) (song : UpSong) :
    let place := AVTransport.insertPlace opts s.w setnext
    let result := MpdCli.insert w uri place song env.insert
    result.1 = -1 ∧ result.2.mpd.queue = s.w.mpd.queue ∨
      ∃ newid : Nat, result.1 = newid ∧ s.w.mpd.queue.Fresh newid ∧
        ∀ id, id ∈ result.2.mpd.queue.ids ↔ id = newid ∨ id ∈ s.ids := by
  dsimp only
  by_cases executed : AVTransport.insertPlace opts s.w setnext ≤ s.w.mpd.queue.songs.length ∧
      env.insert.add.Takes s.w.mpd.queue.Fresh
  · obtain ⟨newid, fresh, answers⟩ := once executed.1 executed.2
    rw [← same] at executed
    obtain ⟨told, inserted⟩ := MpdCli.insert_of_answers quiet.insert w uri song (same ▸ fresh)
      executed.1 answers
    refine .inr ⟨newid, told, fresh, fun id => ?_⟩
    rw [MpdQueue.mem_ids_of_inserted executed.1 inserted, same]
    rfl
  · rw [← same] at executed ⊢
    exact .inl (MpdCli.insert_of_not_takes quiet.insert w uri song _ executed)

/-- An action with arguments which the service takes. -/
theorem changed_insertTrack (shared : opts.ownQueue = false) (quiet : env.Undisturbed)
    (once : s.InsertsOnce opts setnext env) (cleans : setnext = false → s.Cleans env) {w : World}
    (same : w.mpd.queue = s.w.mpd.queue) (uri metadata : String) (song : UpSong)
    (st : PlayState) :
    let result := AVTransport.insertTrack opts s.avt w setnext uri metadata song st
      s.w.cli.m_stat.songpos.toNat env
    s.Changed setnext result.1 result.2.1 result.2.2 := by
  have place : (if setnext then (s.w.cli.m_stat.songpos.toNat : Int) + 1
      else s.w.cli.m_stat.songpos.toNat) = (AVTransport.insertPlace opts s.w setnext : Nat) := by
    unfold AVTransport.insertPlace
    rw [shared]
    cases setnext <;> rfl
  obtain ⟨failed, unchanged⟩ | ⟨newid, told, fresh, ids⟩ := insert_cases quiet once same uri song
  · unfold AVTransport.insertTrack
    rw [place]
    dsimp only
    rw [if_pos (by rw [failed]; decide)]
    exact .refused (fun same => nomatch same) unchanged
  · unfold AVTransport.insertTrack
    rw [place]
    dsimp only
    rw [if_neg (by rw [told]; omega), shared]
    cases setnext with
    | true =>
        refine .next newid fresh.1 (fun id => ?_) ids
        rw [told]
        constructor
        · intro there
          obtain ⟨i, member, same⟩ := List.mem_map.mp there
          rcases AVTransport.mem_addSongid.mp member with rfl | old
          · exact .inl (same ▸ unsigned_of_fresh fresh)
          · exact .inr (same ▸ List.mem_map_of_mem old)
        · rintro (rfl | old)
          · exact List.mem_map.mpr ⟨id, AVTransport.mem_addSongid.mpr (.inl rfl),
              unsigned_of_fresh fresh⟩
          · obtain ⟨i, member, same⟩ := List.mem_map.mp old
            exact List.mem_map.mpr ⟨i, AVTransport.mem_addSongid.mpr (.inr member), same⟩
    | false =>
        have started := AVTransport.queue_startTrack quiet opts
          (MpdCli.insert w uri (AVTransport.insertPlace opts s.w false : Nat) song env.insert).2 st
          s.w.cli.m_stat.songpos.toNat
        have kept (id : Nat) := AVTransport.kept_cleanSongids quiet.clean id
          (AVTransport.startTrack opts
            (MpdCli.insert w uri (AVTransport.insertPlace opts s.w false : Nat) song env.insert).2
            st s.w.cli.m_stat.songpos.toNat env) s.avt.m_songids
        rw [started] at kept
        refine .current newid fresh.1 ?_ ?_ ?_ ?_
        · rw [told]
          exact congrArg (fun id => [id]) (unsigned_of_fresh fresh)
        · exact fun id there => (ids id).mp ((kept id).1 there)
        · exact fun id there foreign => (kept id).2 foreign ((ids id).mpr (.inr there))
        · intro id there own
          refine AVTransport.gone_cleanSongids quiet.clean id _ ?_ own
          rintro place id' at_ rfl
          exact cleans rfl place id' at_ there

theorem changed_setAVTransportURI (shared : opts.ownQueue = false) (quiet : env.Undisturbed)
    {uri metadata : Option String}
    (safe : AVTransport.accepts help uri metadata = true →
      ¬ (setnext = true ∧ s.w.cli.m_stat.qlen = 0) →
        s.InsertsOnce opts setnext env ∧ (setnext = false → s.Cleans env)) :
    let result := s.avt.setAVTransportURI help opts s.w setnext uri metadata env
    s.Changed setnext result.1 result.2.1 result.2.2 := by
  dsimp only
  cases accepted : AVTransport.accepts help uri metadata with
  | false =>
      rw [AVTransport.setAVTransportURI_of_refused help s.avt s.w env setnext accepted]
      exact .refused (fun same => nomatch same) rfl
  | true =>
      obtain ⟨morphed, -, song, -, same⟩ :=
        AVTransport.setAVTransportURI_eq accepted opts s.avt s.w setnext env
      have unchanged := (AVTransport.resetModes_spec quiet.alone opts s.w).2.1
      have prepared : AVTransport.prepared opts s.w setnext env =
          AVTransport.resetModes opts s.w env := by
        unfold AVTransport.prepared
        simp [shared]
      rw [same]
      simp only [shared, Bool.false_and, Bool.false_eq_true, if_false]
      by_cases empty : setnext = true ∧ s.w.cli.m_stat.qlen = 0
      · rw [if_pos empty]
        exact .refused (fun same => nomatch same) unchanged
      · rw [if_neg empty, prepared]
        obtain ⟨once, cleans⟩ := safe accepted empty
        exact changed_insertTrack shared quiet once cleans unchanged _ _ _ _

end Action

section Run

variable {help : PlaylistHelp} {opts : AvtOptions} {s t : SharedQueueRun}

/-- What one action of the service does when it remembers its own songs. -/
theorem remembers_changed {setnext : Bool} {code : UpnpCode} {avt : AVTransport} {w : World}
    (remembers : s.Remembers) (changed : s.Changed setnext code avt w) :
    let t : SharedQueueRun :=
      { avt, w, own := w.mpd.queue.ids.filter fun id => id ∈ s.own ∨ id ∉ s.ids }
    t.Remembers ∧ (∀ id ∈ s.ids, id ∉ s.own → id ∈ t.ids) ∧
      (setnext = false → code = .success → ∀ id ∈ s.own, id ∉ t.ids) := by
  obtain ⟨there, remembered⟩ := remembers
  intro t
  have own {id : Nat} (present : id ∈ t.ids) : id ∈ t.own ↔ id ∈ s.own ∨ id ∉ s.ids := by
    rw [List.mem_filter, decide_eq_true_eq]
    exact and_iff_right present
  have held {id : Nat} (member : id ∈ t.own) : id ∈ t.ids := (List.mem_filter.mp member).1
  cases changed with
  | refused failed same =>
      have ids : t.ids = s.ids := congrArg MpdQueue.ids same
      refine ⟨⟨fun id => held, fun id present => ?_⟩, ?_, fun _ success => absurd success failed⟩
      · rw [own present]
        rw [ids] at present
        exact (remembered id present).trans (or_iff_left fun absent => absent present).symm
      · exact fun id present _ => ids ▸ present
  | next newid fresh told ids =>
      refine ⟨⟨fun id => held, fun id present => ?_⟩, ?_, fun current => nomatch current⟩
      · rw [own present]
        refine (told id).trans ?_
        rcases (ids id).mp present with rfl | old
        · exact iff_of_true (.inl rfl) (.inr fresh)
        · have other : id ≠ newid := fun same => fresh (same ▸ old)
          rw [or_iff_right other, or_iff_left fun absent => absent old]
          exact remembered id old
      · exact fun id present _ => (ids id).mpr (.inr present)
  | current newid fresh told gained kept gone =>
      refine ⟨⟨fun id => held, fun id present => ?_⟩, ?_, ?_⟩
      · rw [own present]
        have named : id ∈ t.remembered ↔ id = newid := by
          show id ∈ avt.m_songids.map unsigned ↔ _
          rw [told]
          exact List.mem_singleton
        rw [named]
        constructor
        · rintro rfl
          exact .inr fresh
        · rintro (mine | absent)
          · have old := there id mine
            exact absurd present (gone id old ((remembered id old).mpr mine))
          · exact (gained id present).resolve_right absent
      · exact fun id present foreign =>
          kept id present fun known => foreign ((remembered id present).mp known)
      · intro _ _ id mine
        have old := there id mine
        exact gone id old ((remembered id old).mpr mine)

theorem remembers_edit {w : World} (remembers : s.Remembers)
    (unknown : ∀ id ∈ w.mpd.queue.ids, id ∉ s.ids → id ∉ s.remembered) :
    (s.edit w).Remembers := by
  refine ⟨fun id member => (List.mem_filter.mp member).1, fun id present => ?_⟩
  have own : id ∈ (s.edit w).own ↔ id ∈ s.own := by
    show id ∈ w.mpd.queue.ids.filter _ ↔ _
    rw [List.mem_filter, decide_eq_true_eq]
    exact and_iff_right present
  rw [own]
  by_cases old : id ∈ s.ids
  · exact remembers.remembered id old
  · exact iff_of_false (unknown id present old) fun mine => old (remembers.there id mine)

theorem remembers_restart {w : World} {origin : Nat → Option Nat}
    (known : ∀ id ∈ w.mpd.queue.ids,
      id ∈ s.remembered ↔ (origin id).any (· ∈ s.own) = true) :
    (s.restart w origin).Remembers := by
  refine ⟨fun id member => (List.mem_filter.mp member).1, fun id present => ?_⟩
  refine (known id present).trans ?_
  show _ ↔ id ∈ w.mpd.queue.ids.filter _
  rw [List.mem_filter]
  exact (and_iff_right present).symm

theorem remembers_step (shared : opts.ownQueue = false) (action : SharedQueueAct)
    (code : UpnpCode) (remembers : s.Remembers) (safe : Safe help opts s action t code)
    (taken : step help opts s action = some (t, code)) :
    t.Remembers ∧ LeavesForeign s action t code := by
  cases action with
  | setUri setnext uri metadata env =>
      cases taken
      exact remembers_changed remembers (changed_setAVTransportURI shared env.2 safe)
  | edit w =>
      cases taken
      exact ⟨remembers_edit remembers safe, trivial⟩
  | restart w origin =>
      cases taken
      exact ⟨remembers_restart safe, trivial⟩

variable (help) in
/-- As long as MPD gives no song of others an id which the service remembers, and keeps the ids
of the songs of the service, the service deletes its own songs and no others. -/
theorem leavesForeign_of_safe (shared : opts.ownQueue = false) (actions : List SharedQueueAct)
    (safe : Machine.Along (Safe help opts) (step help opts) {} actions) :
    Machine.Along LeavesForeign (step help opts) {} actions := by
  have preserve (s : SharedQueueRun) (action : SharedQueueAct) (t : SharedQueueRun)
      (code : UpnpCode) (remembers : s.Remembers) (safe : Safe help opts s action t code)
      (taken : step help opts s action = some (t, code)) :
      t.Remembers ∧ LeavesForeign s action t code :=
    remembers_step shared action code remembers safe taken
  refine Machine.along_of_invariant preserve {} actions ?_ safe
  exact ⟨fun _ member => (nomatch member), fun _ present => nomatch present⟩

instance (s t : SharedQueueRun) (code : UpnpCode) :
    ∀ action, Decidable (LeavesForeign s action t code)
  | .setUri .. => inferInstanceAs (Decidable (_ ∧ _))
  | .edit _ | .restart _ _ => .isTrue trivial

/-- An action whose commands all succeed. MPD gives its song this id, and all the ids it cleans
up can be looked up. -/
def smooth (newid cleaned : Nat) : {env : SetUriEnv // env.Undisturbed} :=
  ⟨{ insert := { add := { first := { newid } } }, clean := List.replicate cleaned (true, {}) }, by
    refine ⟨⟨?_, ?_, ?_, ?_, ?_, ?_, ?_⟩, ⟨?_, fun _ member => (nomatch member), ?_⟩, ⟨?_, ?_⟩, ?_,
      ?_, fun e member => ?_⟩
    all_goals try exact ⟨rfl, rfl⟩
    rw [List.eq_of_mem_replicate member]
    exact ⟨rfl, rfl⟩⟩

/-- Somebody adds a song behind the one of the service, which then replaces its own. -/
theorem leavesForeign_added :
    let queue : MpdQueue :=
      ⟨[{ id := 1, uri := "http://h/a" }, { id := 2, uri := "f" }], by decide, by decide⟩
    Machine.Along LeavesForeign (step .plain {}) {}
      [.setUri false (some "http://h/a") none (smooth 1 0), .edit { mpd := { queue } },
        .setUri false (some "http://h/b") none (smooth 3 1)] := by
  refine leavesForeign_of_safe .plain rfl _ ⟨?_, ?_, ?_, trivial⟩
  · intro _ _
    refine ⟨fun _ _ => ⟨1, by decide, rfl, .inl ⟨rfl, rfl⟩⟩, fun _ place id at_ => ?_⟩
    cases at_
  · show ∀ id ∈ [1, 2], id ∉ [1] → id ∉ [1]
    exact fun id _ absent => absent
  · intro _ _
    refine ⟨fun _ _ => ⟨3, by decide, rfl, .inl ⟨rfl, rfl⟩⟩, fun _ place id at_ _ => ?_⟩
    match place, at_ with
    | 0, _ => exact ⟨(true, {}), rfl, rfl, by decide⟩
    | _ + 1, at_ => cases at_

/-- A song of others which gets a remembered id after a restart of MPD is deleted. A song of the
service which is restored under another id is not. -/
theorem not_leavesForeign_restarted :
    let foreign : MpdQueue := ⟨[{ id := 1, uri := "f" }], by decide, by decide⟩
    let restored : MpdQueue := ⟨[{ id := 7, uri := "http://h/a" }], by decide, by decide⟩
    let run (queue : MpdQueue) (origin : Option Nat) : List SharedQueueAct :=
      [.setUri false (some "http://h/a") none (smooth 1 0),
        .restart { mpd := { queue } } fun _ => origin,
        .setUri false (some "http://h/b") none (smooth 2 1)]
    ¬ Machine.Along LeavesForeign (step .plain {}) {} (run foreign none) ∧
      ¬ Machine.Along LeavesForeign (step .plain {}) {} (run restored (some 1)) := by
  decide

end Run

end SharedQueueRun

end Upmpdcli
