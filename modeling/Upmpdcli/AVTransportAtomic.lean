import Upmpdcli.AVTransportOwnQueue

set_option autoImplicit false

/- What a `setAVTransportURI` which ends in an error has changed. -/
namespace Upmpdcli

/-- MPD gets the command. -/
def CmdEnv.Reaches (env : CmdEnv) : Prop := env.Takes fun _ => True

instance (env : CmdEnv) (fits : Nat → Prop) [DecidablePred fits] : Decidable (env.Takes fits) :=
  inferInstanceAs (Decidable (_ ∧ _))

instance (env : CmdEnv) : Decidable env.Reaches := inferInstanceAs (Decidable (env.Takes fun _ => True))

instance (q : MpdQueue) : DecidablePred q.Fresh := fun _ => inferInstanceAs (Decidable (_ ∧ _))

/-- What is wanted of an action which ends in an error: the queue, the play modes and the
variables of the service are what they were. -/
structure AVTransport.Unchanged (avt avt' : AVTransport) (m m' : Mpd) : Prop where
  queue : m'.queue = m.queue
  rept : m'.rept = m.rept
  random : m'.random = m.random
  single : m'.single = m.single
  consume : m'.consume = m.consume
  uri : avt'.m_uri = avt.m_uri
  curMetadata : avt'.m_curMetadata = avt.m_curMetadata
  nextUri : avt'.m_nextUri = avt.m_nextUri
  nextMetadata : avt'.m_nextMetadata = avt.m_nextMetadata

/-- Where the action inserts its song. -/
def AVTransport.insertPlace (opts : AvtOptions) (w : World) (setnext : Bool) : Nat :=
  let curpos := if opts.ownQueue && !setnext then 0 else w.cli.m_stat.songpos.toNat
  if setnext then curpos + 1 else curpos

namespace SetUriEnv

/-- Nobody else edits the queue during the commands which come before the last error. -/
structure Alone (env : SetUriEnv) : Prop where
  clear : env.clear.Alone
  rept : env.rept.Alone
  random : env.random.Alone
  single : env.single.Alone
  consume : env.consume.Alone
  trim : env.trim.Alone
  insert : env.insert.add.Alone

/-- MPD does not give the new song an id which is in the queue already. -/
def NewId (env : SetUriEnv) (q : MpdQueue) : Prop :=
  env.insert.add.first.newid ∉ q.ids ∧ env.insert.add.second.newid ∉ q.ids

/-- No mode is on which MPD is told to switch off. -/
structure KeepsModes (env : SetUriEnv) (opts : AvtOptions) (m : Mpd) : Prop where
  rept : env.rept.Reaches → m.rept = false
  random : env.random.Reaches → m.random = false
  single : env.single.Reaches → m.single = false
  consume : opts.keepconsume = false → env.consume.Reaches → m.consume = false

/-- How many of the songs behind the current one the service is told of. -/
def behind (env : SetUriEnv) (m : Mpd) (curpos : Nat) : Nat :=
  let behind := m.queue.songs.length - (curpos + 1)
  (env.songs.map fun songs => min songs behind).getD behind

/-- MPD is told neither to clear nor to trim a queue which has something to lose, nor to add
a song it can add. -/
structure KeepsQueue (env : SetUriEnv) (opts : AvtOptions) (w : World) (setnext : Bool) : Prop where
  clear : opts.ownQueue = true → setnext = false → env.clear.Reaches → w.mpd.queue.songs = []
  trim : opts.ownQueue = true → setnext = true → w.cli.m_stat.qlen > 1 →
    env.behind w.mpd w.cli.m_stat.songpos.toNat > 0 → ¬ env.trim.Reaches
  insert : ¬ (AVTransport.insertPlace opts w setnext ≤ w.mpd.queue.songs.length ∧
    env.insert.add.Takes w.mpd.queue.Fresh)

end SetUriEnv

/-- Modes which stay do not matter. -/
theorem Mpd.SameModes.left_iff {m m' : Mpd} (same : m.SameModes m') (m'' : Mpd) :
    m.SameModes m'' ↔ m'.SameModes m'' := by
  unfold SameModes
  rw [same.1, same.2.1, same.2.2.1, same.2.2.2]

theorem Mpd.SameModes.right_iff {m' m'' : Mpd} (same : m'.SameModes m'') (m : Mpd) :
    m.SameModes m'' ↔ m.SameModes m' := by
  unfold SameModes
  rw [same.1, same.2.1, same.2.2.1, same.2.2.2]

theorem SetUriEnv.keepsModes_iff {m m' : Mpd} (same : m.SameModes m') (env : SetUriEnv)
    (opts : AvtOptions) : env.KeepsModes opts m' ↔ env.KeepsModes opts m := by
  obtain ⟨rept, random, single, consume⟩ := same
  constructor
  · rintro ⟨a, b, c, d⟩
    exact ⟨rept ▸ a, random ▸ b, single ▸ c, consume ▸ d⟩
  · rintro ⟨a, b, c, d⟩
    exact ⟨rept.symm ▸ a, random.symm ▸ b, single.symm ▸ c, consume.symm ▸ d⟩

theorem MpdQueue.eq_of_songs {q q' : MpdQueue} (same : q.songs = q'.songs) : q = q' := by
  cases q
  cases q'
  cases same
  rfl

namespace MpdCli

theorem command_eq (w : World) (env : CmdEnv) (cmd : Nat → Mpd → Option Mpd) :
    (command w env cmd).2 =
      { w with
        mpd := (retryCmd env
          (fun chosen mpd => (cmd chosen mpd).map fun mpd => ((), mpd)) w.mpd).2 } := by
  unfold command
  split
  · rename_i ran
    rw [ran]
  · rename_i ran
    rw [ran]
  · rename_i ran
    rw [ran]

/-- A command MPD never refuses, and which twice is as once. -/
theorem command_idempotent {env : CmdEnv} (alone : env.Alone) (w : World) {f : Mpd → Mpd}
    (twice : ∀ m, f (f m) = f m) :
    (command w env fun _ mpd => some (f mpd)).2 =
      { w with mpd := if env.Reaches then f w.mpd else w.mpd } := by
  rw [command_eq]
  congr 1
  let cmd (_ : Nat) (mpd : Mpd) : Option (Unit × Mpd) := some ((), f mpd)
  show (retryCmd env cmd w.mpd).2 = _
  split
  · rename_i reaches
    have takes : env.Takes fun newid => cmd newid w.mpd ≠ none :=
      ⟨reaches.1, by simpa [cmd] using reaches.2⟩
    refine retryCmd_of_takes cmd (fun m => m = f w.mpd) alone ?_ ?_ takes
    · rintro newid - result m ⟨⟩
      rfl
    · rintro newid m result m' rfl ⟨⟩
      exact twice _
  · rename_i unreached
    have refused : ¬ env.Takes fun newid => cmd newid w.mpd ≠ none :=
      fun takes => unreached ⟨takes.1, by simpa [cmd] using takes.2⟩
    exact (retryCmd_of_not_executed cmd alone refused).1

/-- Clearing the queue keeps the modes. -/
theorem clearQueue_spec {env : CmdEnv} (alone : env.Alone) (w : World) :
    (clearQueue w env).2.cli = w.cli ∧ w.mpd.SameModes (clearQueue w env).2.mpd ∧
      (clearQueue w env).2.mpd.queue = if env.Reaches then .empty else w.mpd.queue := by
  let cmd (_ : Nat) (mpd : Mpd) : Option (Unit × Mpd) := some ((), mpd.clear)
  have same : (clearQueue w env).2 = { w with mpd := (retryCmd env cmd w.mpd).2 } :=
    command_eq w env _
  rw [same]
  refine ⟨rfl, ?_, ?_⟩
  · refine retryCmd_rel cmd Mpd.SameModes.refl Mpd.SameModes.trans alone ?_ w.mpd
    rintro newid m result m' ⟨⟩
    exact ⟨rfl, rfl, rfl, rfl⟩
  · split
    · rename_i reaches
      have takes : env.Takes fun newid => cmd newid w.mpd ≠ none :=
        ⟨reaches.1, by simpa [cmd] using reaches.2⟩
      refine retryCmd_of_takes cmd (fun m => m.queue = .empty) alone ?_ ?_ takes
      · rintro newid - result m ⟨⟩
        rfl
      · rintro newid m result m' - ⟨⟩
        rfl
    · rename_i unreached
      have refused : ¬ env.Takes fun newid => cmd newid w.mpd ≠ none :=
        fun takes => unreached ⟨takes.1, by simpa [cmd] using takes.2⟩
      exact congrArg Mpd.queue (retryCmd_of_not_executed cmd alone refused).1

theorem length_deleteRange {m m' : Mpd} {start stop : Nat}
    (deleted : m.deleteRange start stop = some m') :
    start < m.queue.songs.length ∧
      m'.queue.songs.length = start + (m.queue.songs.length - start - (stop - start)) := by
  have there := Mpd.lt_of_deleteRange deleted
  rw [(Mpd.deleteRange_spec deleted).2.1]
  refine ⟨there, ?_⟩
  simp only [MpdQueue.removeRange, List.length_append, List.length_take, List.length_drop]
  omega

/-- An insertion which fails may have been executed. -/
theorem insert_failed {env : InsertEnv} (w : World) (uri : String) (pos : Nat) (song : UpSong)
    (failed : (insert w uri pos song env).1 < 0) :
    (insert w uri pos song env).2.mpd =
      (retryCmd env.add (fun newid mpd => mpd.addId uri pos newid) w.mpd).2 := by
  unfold insert at failed ⊢
  dsimp only at failed ⊢
  rw [place_eq] at failed ⊢
  cases ran : retryCmd env.add (fun newid mpd => mpd.addId uri pos newid) w.mpd with
  | mk ended m =>
      rw [ran] at failed
      cases ended with
      | notOk => rfl
      | error => rfl
      | success id =>
          have told := (lastinsert_updStatus
            { cli := { w.cli with m_lastinsertid := id, m_lastinsertpos := pos }
              mpd := sendTagData w.cli id song env.tags m } env.status).1
          dsimp only at failed told
          rw [told] at failed
          omega

/-- What a failed insertion leaves: the modes, and the queue unless MPD has added the song. -/
theorem insert_failed_spec {env : InsertEnv} (alone : env.add.Alone) (w : World) (uri : String)
    (pos : Nat) (song : UpSong) (failed : (insert w uri pos song env).1 < 0) :
    let m := (insert w uri pos song env).2.mpd
    let taken := pos ≤ w.mpd.queue.songs.length ∧ env.add.Takes w.mpd.queue.Fresh
    w.mpd.SameModes m ∧
      (taken → env.add.first.newid ∈ m.queue.ids ∨ env.add.second.newid ∈ m.queue.ids) ∧
      (¬ taken → m = w.mpd) := by
  dsimp only
  rw [insert_failed w uri pos song failed]
  let cmd (newid : Nat) (mpd : Mpd) : Option (Nat × Mpd) := mpd.addId uri pos newid
  have member {newid id : Nat} {m m' : Mpd} (added : m.addId uri pos newid = some (id, m')) :
      newid ∈ m'.queue.ids ∧ m.queue.ids ⊆ m'.queue.ids ∧ m.SameModes m' := by
    obtain ⟨-, queue, inserted, rfl⟩ := (Mpd.addId_eq_some_iff m m' uri pos newid id).mp added
    obtain ⟨songs, within⟩ := MpdQueue.songs_insertAt inserted
    have ids : queue.ids = m.queue.ids.insertIdx pos newid := by
      rw [MpdQueue.ids, songs, List.map_insertIdx]
      rfl
    have inside : pos ≤ m.queue.ids.length := by
      rw [MpdQueue.length_ids]
      exact within
    refine ⟨?_, fun other there => ?_, ⟨rfl, rfl, rfl, rfl⟩⟩
    · rw [Mpd.setQueue_queue, ids]
      exact (List.mem_insertIdx inside).mpr (.inl rfl)
    · rw [Mpd.setQueue_queue, ids]
      exact (List.mem_insertIdx inside).mpr (.inr there)
  rw [← takes_addId_iff uri]
  refine ⟨?_, fun takes => ?_, fun refused => (retryCmd_of_not_executed cmd alone refused).1⟩
  · refine retryCmd_rel cmd Mpd.SameModes.refl Mpd.SameModes.trans alone ?_ w.mpd
    exact fun newid m result m' added => (member added).2.2
  · refine retryCmd_of_takes cmd
      (fun m => env.add.first.newid ∈ m.queue.ids ∨ env.add.second.newid ∈ m.queue.ids)
      alone ?_ ?_ takes
    · rintro newid (rfl | rfl) result m added
      · exact .inl (member added).1
      · exact .inr (member added).1
    · exact fun newid m result m' held added => held.imp
        (fun there => (member added).2.1 there) (fun there => (member added).2.1 there)

end MpdCli

namespace AVTransport

theorem resetModes_spec {env : SetUriEnv} (alone : env.Alone) (opts : AvtOptions) (w : World) :
    (resetModes opts w env).cli = w.cli ∧ (resetModes opts w env).mpd.queue = w.mpd.queue ∧
      (w.mpd.SameModes (resetModes opts w env).mpd ↔ env.KeepsModes opts w.mpd) := by
  have kept {reaches : Prop} [Decidable reaches] {old : Bool} :
      (if reaches then false else old) = old ↔ (reaches → old = false) := by
    by_cases reached : reaches
    · rw [if_pos reached]
      exact ⟨fun same _ => same.symm, fun off => (off reached).symm⟩
    · rw [if_neg reached]
      exact iff_of_true rfl fun there => absurd there reached
  have modes : (resetModes opts w env).cli = w.cli ∧
      (resetModes opts w env).mpd.queue = w.mpd.queue ∧
      (resetModes opts w env).mpd.rept = (if env.rept.Reaches then false else w.mpd.rept) ∧
      (resetModes opts w env).mpd.random = (if env.random.Reaches then false else w.mpd.random) ∧
      (resetModes opts w env).mpd.single = (if env.single.Reaches then false else w.mpd.single) ∧
      (resetModes opts w env).mpd.consume =
        (if opts.keepconsume = false ∧ env.consume.Reaches then false else w.mpd.consume) := by
    unfold resetModes MpdCli.repeat_ MpdCli.random MpdCli.single MpdCli.consume
    dsimp only
    rw [MpdCli.command_idempotent alone.rept w (f := fun mpd => { mpd with rept := false })
        fun _ => rfl,
      MpdCli.command_idempotent alone.random _ (f := fun mpd => { mpd with random := false })
        fun _ => rfl,
      MpdCli.command_idempotent alone.single _ (f := fun mpd => { mpd with single := false })
        fun _ => rfl,
      MpdCli.command_idempotent alone.consume _ (f := fun mpd => { mpd with consume := false })
        fun _ => rfl]
    by_cases rept : env.rept.Reaches <;> by_cases random : env.random.Reaches <;>
      by_cases single : env.single.Reaches <;> by_cases consume : env.consume.Reaches <;>
      cases opts.keepconsume <;> simp [rept, random, single, consume]
  obtain ⟨cli, queue, rept, random, single, consume⟩ := modes
  refine ⟨cli, queue, ?_⟩
  unfold Mpd.SameModes
  rw [rept, random, single, consume, kept, kept, kept, kept, and_imp]
  exact ⟨fun ⟨a, b, c, d⟩ => ⟨a, b, c, d⟩, fun ⟨a, b, c, d⟩ => ⟨a, b, c, d⟩⟩

/-- Trimming keeps the modes, and the queue unless it deletes something. -/
theorem trimQueue_spec {env : SetUriEnv} (alone : env.trim.Alone) (w : World) (curpos : Nat) :
    (trimQueue w curpos env).cli = w.cli ∧ w.mpd.SameModes (trimQueue w curpos env).mpd ∧
      if env.behind w.mpd curpos > 0 ∧ env.trim.Reaches then
        (trimQueue w curpos env).mpd.queue.songs.length < w.mpd.queue.songs.length
      else (trimQueue w curpos env).mpd = w.mpd := by
  have same : trimQueue w curpos env =
      if env.behind w.mpd curpos > 0 then
        (MpdCli.deletePosRange w (curpos + 1) (curpos + 1 + env.behind w.mpd curpos) env.trim).2
      else w := rfl
  have few : env.behind w.mpd curpos ≤ w.mpd.queue.songs.length - (curpos + 1) := by
    unfold SetUriEnv.behind
    cases env.songs with
    | none => exact Nat.le_refl _
    | some songs => exact Nat.min_le_right _ _
  rw [same]
  by_cases there : env.behind w.mpd curpos > 0
  · rw [if_pos there]
    let delete (_ : Nat) (mpd : Mpd) : Option Mpd :=
      mpd.deleteRange (curpos + 1) (curpos + 1 + env.behind w.mpd curpos)
    let cmd (chosen : Nat) (mpd : Mpd) : Option (Unit × Mpd) :=
      (delete chosen mpd).map fun mpd => ((), mpd)
    have deleted {m m' : Mpd} {result : Unit} (newid : Nat)
        (ran : cmd newid m = some (result, m')) : delete newid m = some m' := by
      obtain ⟨_, deleted, same⟩ := Option.map_eq_some_iff.mp ran
      cases same
      exact deleted
    have result : (MpdCli.deletePosRange w (curpos + 1)
        (curpos + 1 + env.behind w.mpd curpos) env.trim).2 =
          { w with mpd := (retryCmd env.trim cmd w.mpd).2 } := MpdCli.command_eq w env.trim delete
    rw [result]
    have reached : env.trim.Reaches ↔ env.trim.Takes fun newid => cmd newid w.mpd ≠ none := by
      have executed : ∀ newid, cmd newid w.mpd ≠ none := by
        intro newid
        show ((w.mpd.deleteRange _ _).map _) ≠ none
        rw [Mpd.deleteRange, if_pos (by omega)]
        exact Option.some_ne_none _
      unfold CmdEnv.Reaches CmdEnv.Takes
      simp only [executed, ne_eq, not_false_eq_true]
    refine ⟨rfl, ?_, ?_⟩
    · refine retryCmd_rel cmd Mpd.SameModes.refl Mpd.SameModes.trans alone ?_ w.mpd
      intro newid m result m' ran
      exact (Mpd.deleteRange_spec (deleted newid ran)).1
    · split
      · rename_i reaches
        refine retryCmd_of_takes cmd
          (fun m => m.queue.songs.length < w.mpd.queue.songs.length) alone ?_ ?_
          (reached.mp reaches.2)
        · intro newid _ result m ran
          have length := MpdCli.length_deleteRange (deleted newid ran)
          omega
        · intro newid m result m' shorter ran
          have length := MpdCli.length_deleteRange (deleted newid ran)
          omega
      · rename_i unreached
        have refused : ¬ env.trim.Takes fun newid => cmd newid w.mpd ≠ none :=
          fun takes => unreached ⟨there, reached.mpr takes⟩
        exact (retryCmd_of_not_executed cmd alone refused).1
  · rw [if_neg there, if_neg fun both => there both.1]
    exact ⟨rfl, Mpd.SameModes.refl _, rfl⟩

/-- What the action does before the insertion. -/
def prepared (opts : AvtOptions) (w : World) (setnext : Bool) (env : SetUriEnv) : World :=
  let cleared : Bool := opts.ownQueue && !setnext
  let curpos := if cleared then 0 else w.cli.m_stat.songpos.toNat
  let w' := resetModes opts (if cleared then (MpdCli.clearQueue w env.clear).2 else w) env
  if setnext ∧ opts.ownQueue ∧ w.cli.m_stat.qlen > 1 then trimQueue w' curpos env else w'

/-- The queue and the modes before the insertion. -/
theorem prepared_spec {env : SetUriEnv} (alone : env.Alone) (opts : AvtOptions) (w : World)
    (setnext : Bool) :
    let m := (prepared opts w setnext env).mpd
    (w.mpd.SameModes m ↔ env.KeepsModes opts w.mpd) ∧
      (m.queue = w.mpd.queue ↔
        (opts.ownQueue = true → setnext = false → env.clear.Reaches → w.mpd.queue.songs = []) ∧
        (opts.ownQueue = true → setnext = true → w.cli.m_stat.qlen > 1 →
          env.behind w.mpd w.cli.m_stat.songpos.toNat > 0 → ¬ env.trim.Reaches)) := by
  unfold prepared
  dsimp only
  by_cases cleared : opts.ownQueue = true ∧ setnext = false
  · obtain ⟨own, rfl⟩ := cleared
    obtain ⟨-, same, queue⟩ := MpdCli.clearQueue_spec alone.clear w
    obtain ⟨-, queue', modes⟩ := resetModes_spec alone opts (MpdCli.clearQueue w env.clear).2
    rw [if_neg fun both => nomatch both.1]
    simp only [own, Bool.not_false, Bool.and_self, if_true]
    refine ⟨?_, ?_⟩
    · rw [same.left_iff, modes, SetUriEnv.keepsModes_iff same]
    · rw [queue', queue]
      split
      · rename_i reaches
        constructor
        · intro empty
          exact ⟨fun _ _ _ => (congrArg MpdQueue.songs empty).symm, fun _ next => nomatch next⟩
        · intro empty
          exact MpdQueue.eq_of_songs (empty.1 trivial trivial reaches).symm
      · rename_i unreached
        exact iff_of_true rfl ⟨fun _ _ reaches => absurd reaches unreached,
          fun _ next => nomatch next⟩
  · have kept : (opts.ownQueue && !setnext) = false := by
      cases own : opts.ownQueue with
      | false => rfl
      | true =>
          cases setnext with
          | false => exact absurd ⟨own, rfl⟩ cleared
          | true => rfl
    obtain ⟨-, queue, modes⟩ := resetModes_spec alone opts w
    simp only [kept, Bool.false_eq_true, if_false]
    by_cases trims : setnext = true ∧ opts.ownQueue = true ∧ w.cli.m_stat.qlen > 1
    · rw [if_pos trims]
      obtain ⟨-, same, trimmed⟩ := trimQueue_spec alone.trim (resetModes opts w env)
        w.cli.m_stat.songpos.toNat
      have behind : env.behind (resetModes opts w env).mpd w.cli.m_stat.songpos.toNat =
          env.behind w.mpd w.cli.m_stat.songpos.toNat := by
        unfold SetUriEnv.behind
        rw [queue]
      rw [behind] at trimmed
      refine ⟨by rw [same.right_iff, modes], ?_⟩
      split at trimmed
      · rename_i deletes
        refine iff_of_false (fun unchanged => ?_) fun keeps => ?_
        · rw [unchanged, queue] at trimmed
          exact absurd trimmed (Nat.lt_irrefl _)
        · exact keeps.2 trims.2.1 trims.1 trims.2.2 deletes.1 deletes.2
      · rename_i harmless
        rw [trimmed]
        refine iff_of_true queue ⟨fun own current => absurd ⟨own, current⟩ cleared, ?_⟩
        exact fun _ _ _ some reaches => harmless ⟨some, reaches⟩
    · rw [if_neg trims]
      refine ⟨modes, iff_of_true queue ⟨fun own current => absurd ⟨own, current⟩ cleared, ?_⟩⟩
      exact fun own next longer => absurd ⟨next, own, longer⟩ trims

/-- The action with arguments it takes. -/
theorem setAVTransportURI_eq {help : PlaylistHelp} {uri metadata : Option String}
    (accepted : accepts help uri metadata = true) (opts : AvtOptions) (avt : AVTransport)
    (w : World) (setnext : Bool) (env : SetUriEnv) :
    ∃ morphed nocheck song, uri.bind help.morphSpecialUrl = some (morphed, nocheck) ∧
      avt.setAVTransportURI help opts w setnext uri metadata env =
        if setnext = true ∧ w.cli.m_stat.qlen = 0 then
          (.invalidParam, avt,
            resetModes opts
              (if opts.ownQueue && !setnext then (MpdCli.clearQueue w env.clear).2 else w) env)
        else
          insertTrack opts avt (prepared opts w setnext env) setnext morphed (metadata.getD "") song
            w.cli.m_stat.state
            (if opts.ownQueue && !setnext then 0 else w.cli.m_stat.songpos.toNat) env := by
  obtain ⟨morphed, nocheck, song, known, format⟩ := exists_of_accepts help accepted
  refine ⟨morphed, nocheck, song, known, ?_⟩
  unfold setAVTransportURI
  rw [known]
  dsimp only
  rw [format]
  rfl

theorem insertTrack_failed {opts : AvtOptions} {avt : AVTransport} {w : World} {setnext : Bool}
    {uri metadata : String} {song : UpSong} {st : PlayState} {curpos : Nat} {env : SetUriEnv}
    (failed : (insertTrack opts avt w setnext uri metadata song st curpos env).1 ≠ .success) :
    let place := if setnext then curpos + 1 else curpos
    (MpdCli.insert w uri place song env.insert).1 < 0 ∧
      insertTrack opts avt w setnext uri metadata song st curpos env =
        (.internalError, avt, (MpdCli.insert w uri place song env.insert).2) := by
  have place : (((if setnext then curpos + 1 else curpos) : Nat) : Int) =
      if setnext then (curpos : Int) + 1 else curpos := by
    split <;> rfl
  dsimp only
  rw [place]
  unfold insertTrack at failed ⊢
  dsimp only at failed ⊢
  by_cases negative : (MpdCli.insert w uri
      (if setnext = true then (curpos : Int) + 1 else curpos) song env.insert).1 < 0
  · rw [if_pos negative]
    exact ⟨negative, rfl⟩
  · rw [if_neg negative] at failed
    exact absurd rfl failed

/-- An action which ends in an error has changed nothing if and only if it was refused for
its arguments, or no command before the error had anything to change. -/
theorem setAVTransportURI_unchanged_iff (help : PlaylistHelp) (opts : AvtOptions)
    (avt : AVTransport) (w : World) (setnext : Bool) (uri metadata : Option String)
    (env : SetUriEnv) (alone : env.Alone) (newId : env.NewId w.mpd.queue)
    (failed : (avt.setAVTransportURI help opts w setnext uri metadata env).1 ≠ .success) :
    let result := avt.setAVTransportURI help opts w setnext uri metadata env
    avt.Unchanged result.2.1 w.mpd result.2.2.mpd ↔
      accepts help uri metadata = false ∨
        env.KeepsModes opts w.mpd ∧
          (setnext = true ∧ w.cli.m_stat.qlen = 0 ∨ env.KeepsQueue opts w setnext) := by
  have unchanged (m : Mpd) : avt.Unchanged avt w.mpd m ↔
      w.mpd.SameModes m ∧ m.queue = w.mpd.queue :=
    ⟨fun same => ⟨⟨same.rept, same.random, same.single, same.consume⟩, same.queue⟩,
      fun ⟨⟨rept, random, single, consume⟩, queue⟩ =>
        ⟨queue, rept, random, single, consume, rfl, rfl, rfl, rfl⟩⟩
  dsimp only
  cases accepted : accepts help uri metadata with
  | false =>
      rw [setAVTransportURI_of_refused help avt w env setnext accepted, unchanged]
      exact iff_of_true ⟨Mpd.SameModes.refl _, rfl⟩ (.inl rfl)
  | true =>
      obtain ⟨morphed, -, song, -, same⟩ := setAVTransportURI_eq accepted opts avt w setnext env
      rw [same] at failed ⊢
      simp only [Bool.true_eq_false, false_or]
      by_cases empty : setnext = true ∧ w.cli.m_stat.qlen = 0
      · rw [if_pos empty, unchanged]
        obtain ⟨rfl, none⟩ := empty
        obtain ⟨-, queue, modes⟩ := resetModes_spec alone opts w
        simp only [Bool.not_true, Bool.and_false, Bool.false_eq_true, if_false]
        rw [modes, queue]
        exact ⟨fun keeps => ⟨keeps.1, .inl ⟨trivial, none⟩⟩, fun keeps => ⟨keeps.1, rfl⟩⟩
      · rw [if_neg empty] at failed ⊢
        obtain ⟨negative, result⟩ := insertTrack_failed failed
        obtain ⟨modes, queue⟩ := prepared_spec alone opts w setnext
        obtain ⟨same, added, kept⟩ := MpdCli.insert_failed_spec alone.insert _ _ _ _ negative
        change insertPlace opts w setnext ≤ _ ∧ _ → _ at added
        change ¬ (insertPlace opts w setnext ≤ _ ∧ _) → _ at kept
        rw [result, unchanged]
        dsimp only
        rw [same.right_iff, modes, or_iff_right empty]
        refine and_congr_right fun _ => ?_
        constructor
        · intro unchanged
          rw [unchanged] at added
          have refused := fun taken => not_or.mpr newId (added taken)
          rw [kept refused] at unchanged
          rw [unchanged] at refused
          obtain ⟨clear, trim⟩ := queue.mp unchanged
          exact ⟨clear, trim, refused⟩
        · intro keeps
          have unchanged := queue.mpr ⟨keeps.clear, keeps.trim⟩
          rw [unchanged] at kept
          rw [kept keeps.insert, unchanged]

/-- A queue of one song, with the modes off, where MPD refuses the new song. -/
theorem setAVTransportURI_unchanged_refused :
    let queue : MpdQueue := ⟨[{ id := 1, uri := "http://h/a" }], by decide, by decide⟩
    let w : World := (updStatus { mpd := { queue := queue, songpos := some 0 } } {}).1
    let result := ({} : AVTransport).setAVTransportURI .plain {} w true (some "http://h/b") none {}
    AVTransport.Unchanged {} result.2.1 w.mpd result.2.2.mpd := by
  intro queue w result
  have alone : SetUriEnv.Alone {} :=
    ⟨⟨rfl, rfl⟩, ⟨rfl, rfl⟩, ⟨rfl, rfl⟩, ⟨rfl, rfl⟩, ⟨rfl, rfl⟩, ⟨rfl, rfl⟩, ⟨rfl, rfl⟩⟩
  refine (setAVTransportURI_unchanged_iff .plain {} {} w true (some "http://h/b") none {} alone
    ⟨by decide, by decide⟩ (by decide)).mpr (.inr ⟨?_, .inr ?_⟩)
  · exact ⟨fun _ => rfl, fun _ => rfl, fun _ => rfl, fun _ _ => rfl⟩
  · exact ⟨(fun own => nomatch own), (fun own => nomatch own), by decide⟩

/-- A next track for an empty queue switches the repeat mode off and is then refused. A track
which MPD does not take finds the queue of the service cleared. -/
theorem setAVTransportURI_changes :
    let queue : MpdQueue := ⟨[{ id := 1, uri := "http://h/a" }], by decide, by decide⟩
    let empty : World := (updStatus { mpd := { rept := true } } {}).1
    let next := ({} : AVTransport).setAVTransportURI .plain {} empty true (some "http://h/b") none {}
    let w : World := (updStatus { mpd := { queue := queue, songpos := some 0 } } {}).1
    let current := ({} : AVTransport).setAVTransportURI .plain { ownQueue := true } w false
      (some "http://h/b") none {}
    (next.1 = .invalidParam ∧ ¬ AVTransport.Unchanged {} next.2.1 empty.mpd next.2.2.mpd) ∧
      current.1 = .internalError ∧ current.2.2.mpd.queue.songs = [] ∧
        ¬ AVTransport.Unchanged {} current.2.1 w.mpd current.2.2.mpd := by
  intro queue empty next w current
  refine ⟨⟨by decide, fun same => ?_⟩, by decide, by decide, fun same => ?_⟩
  · exact absurd same.rept (by decide)
  · exact absurd same.queue (by decide)

end AVTransport

end Upmpdcli
