import Upmpdcli.AVTransport
import Upmpdcli.Lib.Machine
import Upmpdcli.MpdCliInsertAlone
import Upmpdcli.OHPlaylistSwitch

set_option autoImplicit false

/- The queue of MPD when the AVTransport service owns it: what the actions leave in it while
MPD goes from one track to the next. -/
namespace Upmpdcli

/-- The service at work with MPD. `played` has the ids of the songs MPD has left, and `last`
is the id of the last one an action has put into the queue. -/
structure OwnQueueRun where
  avt : AVTransport := {}
  w : World := {}
  played : List Nat := []
  last : Option Nat := none
deriving DecidableEq

/-- The actions, the end of the current track, and a status request. -/
inductive OwnQueueAct
  | setUri (setnext : Bool) (uri metadata : Option String) (env : SetUriEnv)
  | play (env : PlayEnv)
  | next (env : CmdEnv)
  | advance (chosen : Nat)
  | updStatus (env : StatusEnv)

structure SetUriEnv.Smooth (env : SetUriEnv) : Prop where
  clear : env.clear.Smooth
  rept : env.rept.Smooth
  random : env.random.Smooth
  single : env.single.Smooth
  consume : env.consume.Smooth
  songs : env.songs = none
  trim : env.trim.Smooth
  insert : env.insert.Smooth
  play : env.play.Smooth
  pause : env.pause.Smooth
  stop : env.stop.Smooth

instance (env : InsertEnv) : Decidable env.Smooth := inferInstanceAs (Decidable (_ ∧ _ ∧ _))

instance (env : PlayEnv) : Decidable env.Smooth := inferInstanceAs (Decidable (_ ∧ _))

instance (env : SetUriEnv) : Decidable env.Smooth :=
  decidable_of_iff
    ((env.clear.Smooth ∧ env.rept.Smooth ∧ env.random.Smooth ∧ env.single.Smooth ∧
      env.consume.Smooth) ∧ (env.songs = none ∧ env.trim.Smooth) ∧ env.insert.Smooth ∧
      env.play.Smooth ∧ env.pause.Smooth ∧ env.stop.Smooth)
    ⟨fun ⟨⟨clear, rept, random, single, consume⟩, ⟨songs, trim⟩, insert, play, pause, stop⟩ =>
      ⟨clear, rept, random, single, consume, songs, trim, insert, play, pause, stop⟩,
      fun smooth => ⟨⟨smooth.clear, smooth.rept, smooth.random, smooth.single, smooth.consume⟩,
        ⟨smooth.songs, smooth.trim⟩, smooth.insert, smooth.play, smooth.pause, smooth.stop⟩⟩

/-- The uri and the metadata are ones which `setAVTransportURI` takes. -/
def AVTransport.accepts (help : PlaylistHelp) (uri metadata : Option String) : Bool :=
  (uri.bind help.morphSpecialUrl).any fun (uri, _) =>
    (help.checkContentFormat uri (metadata.getD "") false).isSome

namespace OwnQueueRun

variable (help : PlaylistHelp) (opts : AvtOptions)

/-- The songs MPD has left when it leaves the current one. -/
def leave (s : OwnQueueRun) : List Nat :=
  (s.w.mpd.songpos.bind (s.w.mpd.queue.ids[·]?)).toList ++ s.played

/-- MPD may give the id of a song which is no longer there to a new one. -/
def setUri (s : OwnQueueRun) (setnext : Bool) (uri metadata : Option String) (env : SetUriEnv) :
    OwnQueueRun :=
  match s.avt.setAVTransportURI help opts s.w setnext uri metadata env with
  | (.success, avt, w) =>
      let songid := w.cli.m_lastinsertid.toNat
      { avt := avt, w := w, played := s.played.filter (· ≠ songid), last := some songid }
  | (_, avt, w) => { s with avt := avt, w := w }

/-- With the special modes off, a player which is not at any song starts with the first. -/
def step (s : OwnQueueRun) : OwnQueueAct → Option (OwnQueueRun × Unit)
  | .setUri setnext uri metadata env => some (s.setUri help opts setnext uri metadata env, ())
  | .play env =>
      if env.cmd.first.newid = 0 then some ({ s with w := (MpdCli.play s.w (-1) env).2 }, ())
      else none
  | .next env =>
      let (done, w) := MpdCli.next s.w env
      some ({ s with w := w, played := if done then s.leave else s.played }, ())
  | .advance chosen =>
      if s.w.mpd.state = .play then
        (s.w.mpd.next chosen).map fun mpd =>
          ({ s with w := { s.w with mpd := mpd }, played := s.leave }, ())
      else none
  | .updStatus env => some ({ s with w := (Upmpdcli.updStatus s.w env).1 }, ())

end OwnQueueRun

/-- The commands succeed, and nobody else edits the queue. -/
def OwnQueueAct.Smooth : OwnQueueAct → Prop
  | .setUri _ _ _ env => env.Smooth
  | .play env => env.Smooth
  | .next env => env.Smooth
  | .advance _ => True
  | .updStatus env => env.Smooth

namespace OwnQueueRun

variable (help : PlaylistHelp)

/-- The current song is the first of the queue, and behind it there is at most the song
which was set last. None of them has been played. -/
structure Bounded (s : OwnQueueRun) : Prop where
  first : s.w.mpd.songpos = none ∨ s.w.mpd.songpos = some 0
  next : s.w.mpd.queue.ids.drop 1 = [] ∨ s.w.mpd.queue.ids.drop 1 = s.last.toList
  fresh : ∀ id ∈ s.w.mpd.queue.ids, id ∉ s.played

/-- What is wanted of each action which sets a track. -/
def KeepsBound (_ : OwnQueueRun) (action : OwnQueueAct) (t : OwnQueueRun) (_ : Unit) : Prop :=
  match action with
  | .setUri .. => t.Bounded
  | _ => True

/-- The condition on each step: MPD has left no song which is still in its queue, unless the
action is one which clears the queue. -/
def NonePlayed (s : OwnQueueRun) (action : OwnQueueAct) (_ : OwnQueueRun) (_ : Unit) : Prop :=
  match action with
  | .setUri setnext uri metadata _ =>
      setnext = false ∧ AVTransport.accepts help uri metadata = true ∨
        ∀ id ∈ s.w.mpd.queue.ids, id ∉ s.played
  | _ => True

instance (s : OwnQueueRun) : Decidable s.Bounded :=
  decidable_of_iff
    ((s.w.mpd.songpos = none ∨ s.w.mpd.songpos = some 0) ∧
      (s.w.mpd.queue.ids.drop 1 = [] ∨ s.w.mpd.queue.ids.drop 1 = s.last.toList) ∧
      ∀ id ∈ s.w.mpd.queue.ids, id ∉ s.played)
    ⟨fun ⟨first, next, fresh⟩ => ⟨first, next, fresh⟩,
      fun bounded => ⟨bounded.first, bounded.next, bounded.fresh⟩⟩

instance (s t : OwnQueueRun) (out : Unit) : ∀ action, Decidable (KeepsBound s action t out)
  | .setUri .. => inferInstanceAs (Decidable t.Bounded)
  | .play _ | .next _ | .advance _ | .updStatus _ => .isTrue trivial

instance (s t : OwnQueueRun) (out : Unit) : ∀ action, Decidable (NonePlayed help s action t out)
  | .setUri .. => inferInstanceAs (Decidable (_ ∨ _))
  | .play _ | .next _ | .advance _ | .updStatus _ => .isTrue trivial

instance : ∀ action : OwnQueueAct, Decidable action.Smooth
  | .setUri _ _ _ env => inferInstanceAs (Decidable env.Smooth)
  | .play env => inferInstanceAs (Decidable env.Smooth)
  | .next env => inferInstanceAs (Decidable env.Smooth)
  | .advance _ => .isTrue trivial
  | .updStatus env => inferInstanceAs (Decidable env.Smooth)

/-- The program starts with an empty queue. -/
def new (mpd : Mpd) : OwnQueueRun :=
  { w := { mpd := { mpd with queue := .empty, songpos := none } } }

end OwnQueueRun


namespace MpdQueue

theorem ids_removeRange (q : MpdQueue) (start stop : Nat) :
    (q.removeRange start stop).ids = q.ids.take start ++ (q.ids.drop start).drop (stop - start) := by
  simp only [ids, removeRange, List.map_append, List.map_take, List.map_drop]

theorem length_ids (q : MpdQueue) : q.ids.length = q.songs.length := List.length_map _

end MpdQueue

namespace Mpd

/-- The modes in which MPD plays the songs in their order and then stops are all off. -/
structure Plain (m : Mpd) : Prop where
  rept : m.rept = false
  random : m.random = false
  single : m.single = false

theorem nextPos_of_plain {m : Mpd} (plain : m.Plain) (current chosen : Nat) :
    m.nextPos current chosen =
      if current + 1 < m.queue.ids.length then some (current + 1) else none := by
  simp only [nextPos, plain.rept, plain.random, plain.single, MpdQueue.length_ids,
    Bool.false_eq_true, or_self, if_false]

@[simp] theorem songpos_moveTo (m : Mpd) (pos : Option Nat) : (m.moveTo pos).songpos = pos := by
  cases pos with
  | none => rfl
  | some pos => rfl

/-- What MPD has besides the player stays when the player goes to a song. -/
theorem moveTo_spec (m : Mpd) (pos : Option Nat) :
    (m.moveTo pos).queue = m.queue ∧ (m.moveTo pos).consume = m.consume ∧
      (m.Plain → (m.moveTo pos).Plain) := by
  cases pos with
  | none => exact ⟨rfl, rfl, fun plain => ⟨plain.rept, plain.random, plain.single⟩⟩
  | some pos => exact ⟨rfl, rfl, fun plain => ⟨plain.rept, plain.random, plain.single⟩⟩

/-- MPD goes on to the song behind the current one, or stops. -/
theorem next_of_plain {m m' : Mpd} {chosen : Nat} (plain : m.Plain) (kept : m.consume = false)
    (moved : m.next chosen = some m') :
    m'.Plain ∧ m'.consume = false ∧ m'.queue = m.queue ∧ ∃ current, m.songpos = some current ∧
      m'.songpos = if current + 1 < m.queue.ids.length then some (current + 1) else none := by
  unfold next at moved
  split at moved
  · obtain ⟨current, there, same⟩ := Option.map_eq_some_iff.mp moved
    obtain ⟨queue, consume, still⟩ := m.moveTo_spec (m.nextPos current chosen)
    simp only [kept, Bool.false_eq_true, if_false] at same
    rw [← same]
    refine ⟨still plain, consume.trans kept, queue, current, there, ?_⟩
    rw [songpos_moveTo, nextPos_of_plain plain]
  · cases moved

/-- In the consume mode the first song gives way to the next one. -/
theorem next_of_consume {m m' : Mpd} {chosen : Nat} (plain : m.Plain) (consume : m.consume = true)
    (first : m.songpos = some 0) (inside : 0 < m.queue.ids.length)
    (moved : m.next chosen = some m') :
    m'.Plain ∧ m'.consume = true ∧ m'.queue.ids = m.queue.ids.drop 1 ∧
      (m'.songpos = none ∨ m'.songpos = some 0 ∧ 1 < m.queue.ids.length) := by
  unfold next at moved
  split at moved
  · rw [first, Option.map_some] at moved
    obtain ⟨queue, consumes, still⟩ := m.moveTo_spec (m.nextPos 0 chosen)
    obtain ⟨last, gone⟩ := deleteRange_of_lt (m.moveTo (m.nextPos 0 chosen)) (0 + 1)
      (by rw [queue, ← MpdQueue.length_ids]; exact inside)
    obtain ⟨same, removed, outside⟩ := deleteRange_spec gone
    dsimp only at moved
    rw [gone, Option.getD_some] at moved
    cases moved
    have plain' := still plain
    refine ⟨⟨same.1.trans plain'.rept, same.2.1.trans plain'.random,
      same.2.2.1.trans plain'.single⟩, same.2.2.2.trans (consumes.trans consume), ?_, ?_⟩
    · rw [removed, queue, MpdQueue.ids_removeRange]
      rfl
    · rw [songpos_moveTo, nextPos_of_plain plain] at outside
      rw [(outside fun pos there => .inr ?_).2]
      · split
        · rename_i following
          exact .inr ⟨rfl, following⟩
        · exact .inl rfl
      · split at there
        · cases there
          exact Nat.le_refl _
        · cases there
  · cases moved

end Mpd

/-- What the service knows of the queue is what MPD has. -/
structure World.Told (w : World) : Prop where
  qlen : w.cli.m_stat.qlen = w.mpd.queue.ids.length
  songpos : w.cli.m_stat.songpos = (w.mpd.songpos.map Int.ofNat).getD (-1)

namespace MpdCli

theorem told_updStatus {env : StatusEnv} (smooth : env.Smooth) (w : World) :
    (updStatus w env).1.Told ∧ (updStatus w env).1.mpd = w.mpd := by
  obtain ⟨answered, before, during⟩ := smooth
  unfold updStatus
  simp only [answered, before, during, Mpd.edited, List.foldl_nil, if_true]
  refine ⟨?_, trivial⟩
  obtain ⟨_, _, _, _, same⟩ := updSongs_eq
    ((w.cli.m_stat.setVolume (if env.mixer = true then w.mpd.volume else -1)
      w.cli.m_cachedvolume).copyStatus w.mpd) w.mpd env
  constructor
  · rw [same, MpdQueue.length_ids]
    rfl
  · rw [same]
    rfl

/-- Tagging a song leaves everything alone which matters here. -/
theorem player_sendTagData (cli : MpdCli) (id : Nat) (song : UpSong) {env : List Attempt}
    (alone : ∀ e ∈ env, e.edits = []) (mpd : Mpd) :
    mpd.SamePlayer (sendTagData cli id song env mpd) ∧
      (sendTagData cli id song env mpd).queue.ids = mpd.queue.ids ∧
      (sendTagData cli id song env mpd).songpos = mpd.songpos := by
  apply sendTagData_rel (R := fun m m' =>
      m.SamePlayer m' ∧ m'.queue.ids = m.queue.ids ∧ m'.songpos = m.songpos)
    (fun m => ⟨.refl m, rfl, rfl⟩)
    (fun _ _ _ first second => ⟨first.1.trans second.1, second.2.1.trans first.2.1,
      second.2.2.trans first.2.2⟩)
  · intro m m' name value tagged
    refine ⟨(uris_addTagId tagged).2, (Mpd.addTagId_of_some tagged).1, ?_⟩
    unfold Mpd.addTagId at tagged
    split at tagged
    · cases tagged
    · split at tagged
      · cases tagged
        rfl
      · cases tagged
  · intro e member m
    rw [alone e member]
    exact ⟨.refl m, rfl, rfl⟩

/-- An insertion does what it should, or MPD refuses it. -/
theorem insert_cases {env : InsertEnv} (smooth : env.Smooth) (w : World) (uri : String)
    (pos : Nat) (song : UpSong) :
    let w' := (insert w uri pos song env).2
    (insert w uri pos song env).1 < 0 ∧ w'.mpd = w.mpd ∧ w'.cli.m_stat = w.cli.m_stat ∨
      ∃ newid : Nat, (insert w uri pos song env).1 = newid ∧ w'.cli.m_lastinsertid = newid ∧
        w'.Told ∧ w.mpd.SamePlayer w'.mpd ∧ newid ∉ w.mpd.queue.ids ∧
        pos ≤ w.mpd.queue.ids.length ∧
        w'.mpd.queue.ids = w.mpd.queue.ids.insertIdx pos newid ∧
        w'.mpd.songpos = w.mpd.songpos.map fun current =>
          if pos ≤ current then current + 1 else current := by
  obtain ⟨add, tags, status⟩ := smooth
  unfold insert
  dsimp only
  rw [place_eq, retryCmd_smooth add]
  cases added : w.mpd.addId uri pos env.add.first.newid with
  | none => exact .inl ⟨(show (-1 : Int) < 0 by decide), rfl, rfl⟩
  | some result =>
      obtain ⟨id, mpd⟩ := result
      obtain ⟨⟨unused, -, -⟩, within⟩ := Mpd.addId_ne_none_iff.mp (added ▸ Option.some_ne_none _)
      have put := (uris_addId added).2
      obtain ⟨rfl, queue, inserted, rfl⟩ := (Mpd.addId_eq_some_iff _ _ uri pos _ id).mp added
      have ids : queue.ids = w.mpd.queue.ids.insertIdx pos env.add.first.newid := by
        rw [MpdQueue.ids, (MpdQueue.songs_insertAt inserted).1, List.map_insertIdx]
        rfl
      let cli : MpdCli :=
        { w.cli with m_lastinsertid := env.add.first.newid, m_lastinsertpos := pos }
      have tagged := player_sendTagData w.cli env.add.first.newid song tags
        { w.mpd.setQueue queue with
          songpos := w.mpd.songpos.map fun current => if pos ≤ current then current + 1 else current }
      dsimp only
      generalize sendTagData w.cli env.add.first.newid song env.tags _ = mpd at tagged ⊢
      obtain ⟨told, same⟩ := told_updStatus status { cli := cli, mpd := mpd }
      have last := (lastinsert_updStatus { cli := cli, mpd := mpd } env.status).1
      right
      refine ⟨env.add.first.newid, last, last, ⟨told.qlen, told.songpos⟩, ?_, unused, ?_, ?_, ?_⟩
      · show w.mpd.SamePlayer (updStatus { cli := cli, mpd := mpd } env.status).1.mpd
        rw [same]
        exact put.trans tagged.1
      · rw [MpdQueue.length_ids]
        exact within
      · show (updStatus { cli := cli, mpd := mpd } env.status).1.mpd.queue.ids = _
        rw [same, tagged.2.1]
        exact ids
      · show (updStatus { cli := cli, mpd := mpd } env.status).1.mpd.songpos = _
        rw [same, tagged.2.2]

end MpdCli

theorem Mpd.OnlyPlayer.ids {m m' : Mpd} (moved : m.OnlyPlayer m') :
    m'.queue.ids = m.queue.ids := by
  obtain ⟨_, _, _, rfl⟩ := moved
  rfl

namespace MpdCli

/-- A `play` tells the service what MPD has, or MPD has refused it. -/
theorem play_cases {env : PlayEnv} (smooth : env.Smooth) (w : World) (pos : Int) :
    let w' := (play w pos env).2
    w' = w ∨ w'.Told ∧ w'.cli.m_lastinsertid = w.cli.m_lastinsertid ∧
      (if pos ≥ 0 then w.mpd.playPos (unsigned pos) else w.mpd.play env.cmd.first.newid) =
        some w'.mpd := by
  unfold play
  dsimp only
  rw [command_smooth smooth.1]
  cases played : (if pos ≥ 0 then w.mpd.playPos (unsigned pos)
      else w.mpd.play env.cmd.first.newid) with
  | none => exact .inl rfl
  | some mpd =>
      obtain ⟨told, same⟩ := told_updStatus smooth.2 { w with mpd := mpd }
      have last := (lastinsert_updStatus { w with mpd := mpd } env.status).1
      exact .inr ⟨told, last, congrArg some same.symm⟩

end MpdCli

namespace AVTransport

section Own

variable (help : PlaylistHelp) {opts : AvtOptions} (own : opts.ownQueue = true)
  (avt : AVTransport) (w : World) {uri metadata : Option String} (env : SetUriEnv)

theorem setAVTransportURI_of_refused (setnext : Bool)
    (refused : accepts help uri metadata = false) :
    avt.setAVTransportURI help opts w setnext uri metadata env = (.invalidParam, avt, w) := by
  unfold accepts at refused
  unfold setAVTransportURI
  cases known : uri.bind help.morphSpecialUrl with
  | none => rfl
  | some morphed =>
      obtain ⟨uri, nocheck⟩ := morphed
      rw [known, Option.any_some] at refused
      cases format : help.checkContentFormat uri (metadata.getD "") false with
      | none => simp only [format]
      | some song =>
          dsimp only at refused
          rw [format] at refused
          cases refused

theorem exists_of_accepts (accepted : accepts help uri metadata = true) :
    ∃ morphed nocheck song, uri.bind help.morphSpecialUrl = some (morphed, nocheck) ∧
      help.checkContentFormat morphed (metadata.getD "") false = some song := by
  unfold accepts at accepted
  cases known : uri.bind help.morphSpecialUrl with
  | none =>
      rw [known] at accepted
      cases accepted
  | some morphed =>
      rw [known, Option.any_some] at accepted
      obtain ⟨song, format⟩ := Option.isSome_iff_exists.mp accepted
      exact ⟨morphed.1, morphed.2, song, rfl, format⟩

include own

/-- SetAVTransportURI clears the queue and puts its song there. -/
theorem setAVTransportURI_of_accepted (accepted : accepts help uri metadata = true) :
    ∃ morphed song,
      avt.setAVTransportURI help opts w false uri metadata env =
        avt.insertTrack opts (resetModes opts (MpdCli.clearQueue w env.clear).2 env) false morphed
          (metadata.getD "") song w.cli.m_stat.state 0 env := by
  obtain ⟨morphed, nocheck, song, known, format⟩ := exists_of_accepts help accepted
  refine ⟨morphed, song, ?_⟩
  unfold setAVTransportURI
  simp only [known, format, own, Bool.not_false, Bool.and_self, if_true, Bool.false_eq_true,
    false_and, if_false]

/-- SetNextAVTransportURI puts its song behind the current one. -/
theorem setNextAVTransportURI_of_accepted (accepted : accepts help uri metadata = true) :
    let modes := resetModes opts w env
    let curpos := w.cli.m_stat.songpos.toNat
    ∃ morphed song,
      avt.setAVTransportURI help opts w true uri metadata env =
        if w.cli.m_stat.qlen = 0 then (.invalidParam, avt, modes)
        else
          avt.insertTrack opts
            (if w.cli.m_stat.qlen > 1 then trimQueue modes curpos env else modes) true morphed
            (metadata.getD "") song w.cli.m_stat.state curpos env := by
  obtain ⟨morphed, nocheck, song, known, format⟩ := exists_of_accepts help accepted
  refine ⟨morphed, song, ?_⟩
  unfold setAVTransportURI
  simp only [known, format, own, Bool.not_true, Bool.and_false, Bool.false_eq_true, if_false,
    true_and]

/-- The next track: the insertion alone. -/
theorem insertTrack_next (morphed data : String) (song : UpSong) (st : PlayState) (curpos : Nat) :
    let inserted := MpdCli.insert w morphed ((curpos + 1 : Nat) : Int) song env.insert
    ∃ avt', avt.insertTrack opts w true morphed data song st curpos env =
      if inserted.1 < 0 then (.internalError, avt, inserted.2) else (.success, avt', inserted.2) := by
  unfold insertTrack
  simp only [own, if_true]
  exact ⟨_, rfl⟩

/-- The current track: the insertion, and then the player. -/
theorem insertTrack_current (morphed data : String) (song : UpSong) (st : PlayState)
    (curpos : Nat) :
    let inserted := MpdCli.insert w morphed (curpos : Int) song env.insert
    ∃ avt', avt.insertTrack opts w false morphed data song st curpos env =
      if inserted.1 < 0 then (.internalError, avt, inserted.2)
      else (.success, avt', startTrack opts inserted.2 st curpos env) := by
  unfold insertTrack
  simp only [own, if_true, Bool.false_eq_true, if_false]
  exact ⟨_, rfl⟩

end Own

section Smooth

variable {env : SetUriEnv} (smooth : env.Smooth)

include smooth

theorem resetModes_smooth (opts : AvtOptions) (w : World) :
    resetModes opts w env =
      { w with mpd := { w.mpd with
        rept := false, random := false, single := false
        consume := opts.keepconsume && w.mpd.consume } } := by
  unfold resetModes MpdCli.repeat_ MpdCli.random MpdCli.single MpdCli.consume
  simp only [MpdCli.command_smooth smooth.rept, MpdCli.command_smooth smooth.random,
    MpdCli.command_smooth smooth.single, MpdCli.command_smooth smooth.consume]
  cases opts.keepconsume with
  | true => rfl
  | false => rfl

/-- The songs behind the given place are gone. -/
theorem trimQueue_smooth (w : World) (curpos : Nat) :
    let w' := trimQueue w curpos env
    w'.cli = w.cli ∧ w.mpd.SameModes w'.mpd ∧
      w'.mpd.queue.ids = w.mpd.queue.ids.take (curpos + 1) ∧
      ((∀ pos ∈ w.mpd.songpos, pos ≤ curpos) → w'.mpd.songpos = w.mpd.songpos) := by
  unfold trimQueue
  rw [smooth.songs, ← MpdQueue.length_ids]
  dsimp only [Option.map_none, Option.getD_none]
  split
  · rename_i there
    obtain ⟨mpd, gone⟩ := w.mpd.deleteRange_of_lt
      (curpos + 1 + (w.mpd.queue.ids.length - (curpos + 1)))
      (show curpos + 1 < w.mpd.queue.songs.length by rw [← MpdQueue.length_ids]; omega)
    obtain ⟨same, removed, outside⟩ := Mpd.deleteRange_spec gone
    unfold MpdCli.deletePosRange
    rw [MpdCli.command_smooth smooth.trim, gone]
    refine ⟨rfl, same, ?_, fun before => ?_⟩
    · rw [removed, MpdQueue.ids_removeRange, List.drop_drop, List.drop_eq_nil_of_le (by omega),
        List.append_nil]
    · show mpd.songpos = w.mpd.songpos
      rw [(outside fun pos there => .inl (Nat.lt_succ_of_le (before pos there))).2]
      cases current : w.mpd.songpos with
      | none => rfl
      | some pos =>
          have here := before pos current
          rw [Option.map_some, if_pos (by omega)]
  · rename_i none
    refine ⟨rfl, Mpd.SameModes.refl _, ?_, fun _ => rfl⟩
    rw [List.take_of_length_le (by omega)]

/-- The queue into which the next track is put. -/
theorem trim_spec (opts : AvtOptions) (w : World) (curpos : Nat) :
    let modes := resetModes opts w env
    let w' := if w.cli.m_stat.qlen > 1 then trimQueue modes curpos env else modes
    w'.cli = w.cli ∧ w'.mpd.Plain ∧
      (w'.mpd.queue.ids = w.mpd.queue.ids.take (curpos + 1) ∨
        w.cli.m_stat.qlen ≤ 1 ∧ w'.mpd.queue.ids = w.mpd.queue.ids) ∧
      ((∀ pos ∈ w.mpd.songpos, pos ≤ curpos) → w'.mpd.songpos = w.mpd.songpos) := by
  rw [resetModes_smooth smooth]
  dsimp only
  split
  · have trimmed := trimQueue_smooth smooth { w with mpd := { w.mpd with
        rept := false, random := false, single := false
        consume := opts.keepconsume && w.mpd.consume } } curpos
    obtain ⟨cli, same, ids, songpos⟩ := trimmed
    exact ⟨cli, ⟨same.1, same.2.1, same.2.2.1⟩, .inl ids, songpos⟩
  · rename_i short
    exact ⟨rfl, ⟨rfl, rfl, rfl⟩, .inr ⟨Int.not_lt.mp short, rfl⟩, fun _ => rfl⟩

/-- The only song of the queue becomes the current one, or there is none. -/
theorem startTrack_smooth (opts : AvtOptions) {w : World} (st : PlayState) (told : w.Told)
    (one : w.mpd.queue.ids.length = 1) (nowhere : w.mpd.songpos = none) :
    let w' := startTrack opts w st 0 env
    w'.cli.m_lastinsertid = w.cli.m_lastinsertid ∧ w.mpd.OnlyPlayer w'.mpd ∧
      (w'.mpd.songpos = none ∨ w'.mpd.songpos = some 0) ∧ w'.cli.m_stat.qlen = 1 ∧
      w'.cli.m_stat.songpos ≤ 0 := by
  have qlen := told.qlen
  have songpos := told.songpos
  rw [one] at qlen
  rw [nowhere] at songpos
  have outside : w.cli.m_stat.songpos ≤ 0 := by
    rw [songpos]
    decide
  have played :
      let w' := (MpdCli.play w ((0 : Nat) : Int) env.play).2
      w'.cli.m_lastinsertid = w.cli.m_lastinsertid ∧ w.mpd.OnlyPlayer w'.mpd ∧
        (w'.mpd.songpos = none ∨ w'.mpd.songpos = some 0) ∧ w'.cli.m_stat.qlen = 1 ∧
        w'.cli.m_stat.songpos ≤ 0 := by
    have moved := MpdCli.onlyPlayer_play_smooth smooth.play w ((0 : Nat) : Int)
    have there : (MpdCli.play w ((0 : Nat) : Int) env.play).2.mpd.songpos = some 0 := by
      apply MpdCli.songpos_play smooth.play
      rw [Mpd.uris, List.length_map, ← MpdQueue.length_ids]
      omega
    have ids := moved.ids
    rcases MpdCli.play_cases smooth.play w ((0 : Nat) : Int) with same | ⟨told', last, -⟩
    · rw [same, nowhere] at there
      cases there
    · refine ⟨last, moved, .inr there, ?_, ?_⟩
      · rw [told'.qlen, ids, one]
        rfl
      · rw [told'.songpos, there]
        exact Int.le_refl 0
  unfold startTrack
  split
  · exact played
  · cases st with
    | play => exact played
    | pause =>
        dsimp only [MpdCli.pause]
        rw [MpdCli.command_smooth smooth.pause]
        exact ⟨rfl, ⟨_, _, _, rfl⟩, .inl nowhere, qlen, outside⟩
    | stop =>
        dsimp only [MpdCli.stop]
        rw [MpdCli.command_smooth smooth.stop]
        exact ⟨rfl, ⟨_, _, _, rfl⟩, .inl nowhere, qlen, outside⟩
    | unk => exact ⟨rfl, .refl _, .inl nowhere, qlen, outside⟩

end Smooth

end AVTransport

namespace OwnQueueRun

/-- What holds between the actions. When a song of the queue has been played, then so has
the first one, and a player which is behind it is not the only one to know. -/
structure Owned (s : OwnQueueRun) : Prop where
  modes : s.w.mpd.queue.ids ≠ [] → s.w.mpd.Plain
  next : s.w.mpd.queue.ids.drop 1 = [] ∨ s.w.mpd.queue.ids.drop 1 = s.last.toList
  inside : ∀ pos ∈ s.w.mpd.songpos, pos < s.w.mpd.queue.ids.length
  order : ∀ id ∈ s.w.mpd.queue.ids, id ∈ s.played →
    ∀ first ∈ s.w.mpd.queue.ids.head?, first ∈ s.played
  past : ∀ pos ∈ s.w.mpd.songpos, 0 < pos → ∀ first ∈ s.w.mpd.queue.ids.head?, first ∈ s.played
  qlen : (s.w.mpd.queue.ids.length : Int) ≤ s.w.cli.m_stat.qlen
  songpos : 0 < s.w.cli.m_stat.songpos →
    ∀ first ∈ s.w.mpd.queue.ids.head?, first ∈ s.played
  consume : s.w.mpd.consume = true → ∀ id ∈ s.w.mpd.queue.ids, id ∉ s.played

theorem owned_new (mpd : Mpd) : (new mpd).Owned where
  modes := fun there => absurd rfl there
  next := .inl rfl
  inside := fun _ there => nomatch there
  order := fun _ member => nomatch member
  past := fun _ there => nomatch there
  qlen := Int.le_refl 0
  songpos := fun _ _ there => nomatch there
  consume := fun _ _ member => nomatch member

section Steps

variable {help : PlaylistHelp} {opts : AvtOptions} {s : OwnQueueRun}

/-- The bound is only lost to songs which have been played. -/
theorem bounded_iff (owned : s.Owned) :
    s.Bounded ↔ ∀ id ∈ s.w.mpd.queue.ids, id ∉ s.played := by
  constructor
  · exact fun bounded => bounded.fresh
  · intro fresh
    refine ⟨?_, owned.next, fresh⟩
    by_contra behind
    obtain ⟨away, notFirst⟩ := not_or.mp behind
    obtain ⟨pos, there⟩ := Option.ne_none_iff_exists'.mp away
    have inside := owned.inside pos there
    have positive : 0 < pos := by
      have nonzero : pos ≠ 0 := fun zero => notFirst (zero ▸ there)
      omega
    obtain ⟨first, rest, ids⟩ := List.exists_cons_of_length_pos (Nat.zero_lt_of_lt inside)
    have head : first ∈ s.w.mpd.queue.ids.head? := by
      rw [ids]
      rfl
    exact fresh first (List.mem_of_mem_head? head) (owned.past pos there positive first head)

/-- A status request tells where the player is. -/
theorem Owned.told {w : World} (owned : s.Owned) (same : w.mpd = s.w.mpd) (told : w.Told) :
    Owned { s with w := w } := by
  refine ⟨?_, ?_, ?_, ?_, ?_, ?_, ?_, ?_⟩
  · rw [same]
    exact owned.modes
  · rw [same]
    exact owned.next
  · rw [same]
    exact owned.inside
  · rw [same]
    exact owned.order
  · rw [same]
    exact owned.past
  · exact Int.le_of_eq told.qlen.symm
  · intro behind
    dsimp only at behind ⊢
    rw [told.songpos, same] at behind
    rw [same]
    cases there : s.w.mpd.songpos with
    | none =>
        rw [there] at behind
        exact absurd behind (by decide)
    | some pos =>
        rw [there] at behind
        exact owned.past pos there (Int.ofNat_lt.mp behind)
  · rw [same]
    exact owned.consume

/-- The player starts, with the first song if it is not at any. -/
theorem owned_player (owned : s.Owned) {mpd : Mpd} (moved : s.w.mpd.OnlyPlayer mpd)
    (there : mpd.songpos = s.w.mpd.songpos ∨
      mpd.songpos = some 0 ∧ 0 < s.w.mpd.queue.ids.length) :
    Owned { s with w := { s.w with mpd := mpd } } := by
  obtain ⟨songpos, state, elapsedms, rfl⟩ := moved
  refine ⟨fun some => ?_, owned.next, fun pos here => ?_, owned.order, fun pos here => ?_,
    owned.qlen, owned.songpos, owned.consume⟩
  · have plain := owned.modes some
    exact ⟨plain.rept, plain.random, plain.single⟩
  · rcases there with same | ⟨first, inside⟩
    · exact owned.inside pos (same ▸ here)
    · cases first.symm.trans here
      exact inside
  · rcases there with same | ⟨first, inside⟩
    · exact owned.past pos (same ▸ here)
    · cases first.symm.trans here
      exact fun positive => absurd positive (Nat.lt_irrefl 0)

theorem songpos_play_first {m m' : Mpd} (played : m.play 0 = some m') :
    m'.songpos = m.songpos ∨ m'.songpos = some 0 ∧ 0 < m.queue.ids.length := by
  unfold Mpd.play at played
  split at played
  · rename_i pos there
    cases played
    exact .inl rfl
  · split at played
    · cases played
      exact .inl rfl
    · unfold Mpd.playPos at played
      split at played
      · rename_i inside
        cases played
        rw [MpdQueue.length_ids]
        exact .inr ⟨rfl, inside⟩
      · cases played

theorem owned_play (owned : s.Owned) {env : PlayEnv} (smooth : env.Smooth)
    (start : env.cmd.first.newid = 0) :
    Owned { s with w := (MpdCli.play s.w (-1) env).2 } := by
  rcases MpdCli.play_cases smooth s.w (-1) with same | ⟨told, -, played⟩
  · rw [same]
    exact owned
  · rw [if_neg (by decide), start] at played
    have moved := owned_player owned (onlyPlayer_play played) (songpos_play_first played)
    exact moved.told rfl told

theorem leave_of_songpos {pos : Nat} (there : s.w.mpd.songpos = some pos) :
    s.leave = s.w.mpd.queue.ids[pos]?.toList ++ s.played := by
  unfold leave
  rw [there, Option.bind_some]

/-- When MPD leaves a song, which may be deleted. -/
theorem owned_leave (owned : s.Owned) {mpd : Mpd} {chosen : Nat}
    (moved : s.w.mpd.next chosen = some mpd) :
    Owned { s with w := { s.w with mpd := mpd }, played := s.leave } := by
  have somewhere : ∃ pos, s.w.mpd.songpos = some pos := by
    unfold Mpd.next at moved
    split at moved
    · obtain ⟨pos, there, -⟩ := Option.map_eq_some_iff.mp moved
      exact ⟨pos, there⟩
    · cases moved
  obtain ⟨pos, there⟩ := somewhere
  have inside := owned.inside pos there
  obtain ⟨first, rest, ids⟩ := List.exists_cons_of_length_pos (Nat.zero_lt_of_lt inside)
  have head : first ∈ s.w.mpd.queue.ids.head? := by
    rw [ids]
    rfl
  have plain := owned.modes (by rw [ids]; exact List.cons_ne_nil _ _)
  cases consume : s.w.mpd.consume with
  | false =>
      obtain ⟨plain', consume', queue, current, -, songpos⟩ :=
        Mpd.next_of_plain plain consume moved
      have left : ∀ first ∈ mpd.queue.ids.head?, first ∈ s.leave := by
        intro first there'
        rw [queue] at there'
        rw [leave_of_songpos there]
        by_cases zero : pos = 0
        · rw [zero, ← List.head?_eq_getElem?, there']
          exact List.mem_cons_self
        · exact List.mem_append_right _
            (owned.past pos there (Nat.pos_of_ne_zero zero) first there')
      refine ⟨fun _ => plain', ?_, ?_, fun _ _ _ => left, fun _ _ _ => left, ?_, fun _ => left, ?_⟩
      · rw [queue]
        exact owned.next
      · intro next here
        dsimp only at here ⊢
        rw [songpos] at here
        split at here
        · cases here
          rw [queue]
          omega
        · cases here
      · rw [queue]
        exact owned.qlen
      · dsimp only
        rw [consume']
        exact fun consumes => nomatch consumes
  | true =>
      have fresh := owned.consume consume
      have zero : pos = 0 := by
        by_contra nonzero
        exact fresh first (List.mem_of_mem_head? head)
          (owned.past pos there (Nat.pos_of_ne_zero nonzero) first head)
      rw [zero] at there inside
      obtain ⟨plain', consume', dropped, songpos⟩ :=
        Mpd.next_of_consume plain consume there inside moved
      have left : s.leave = first :: s.played := by
        rw [leave_of_songpos there, ids]
        rfl
      have distinct : first ∉ rest := by
        have nodup : s.w.mpd.queue.ids.Nodup := s.w.mpd.queue.distinct
        rw [ids] at nodup
        exact (List.nodup_cons.mp nodup).1
      rw [ids, List.drop_succ_cons, List.drop_zero] at dropped
      have unplayed : ∀ id ∈ mpd.queue.ids, id ∉ s.leave := by
        intro id member
        rw [dropped] at member
        rw [left, List.mem_cons, not_or]
        refine ⟨fun same => distinct (same ▸ member), fresh id ?_⟩
        rw [ids]
        exact List.mem_cons_of_mem _ member
      refine ⟨fun _ => plain', ?_, ?_, ?_, ?_, ?_, ?_, fun _ => unplayed⟩
      · have one := owned.next
        rw [ids, List.drop_succ_cons, List.drop_zero] at one
        dsimp only
        rw [dropped]
        rcases one with none | last
        · rw [none]
          exact .inl rfl
        · rw [last]
          cases s.last with
          | none => exact .inl rfl
          | some last => exact .inl rfl
      · intro pos' there'
        dsimp only at there' ⊢
        rcases songpos with nowhere | ⟨still, longer⟩
        · rw [nowhere] at there'
          cases there'
        · rw [still] at there'
          cases there'
          rw [ids, List.length_cons] at longer
          rw [dropped]
          omega
      · exact fun id member played => absurd played (unplayed id member)
      · intro pos' there' positive
        dsimp only at there'
        rcases songpos with nowhere | ⟨still, -⟩
        · rw [nowhere] at there'
          cases there'
        · rw [still] at there'
          cases there'
          exact absurd positive (Nat.lt_irrefl 0)
      · have qlen := owned.qlen
        rw [ids, List.length_cons] at qlen
        dsimp only
        rw [dropped]
        omega
      · intro behind
        exact absurd (owned.songpos behind first head) (fresh first (List.mem_of_mem_head? head))

theorem setUri_eq {setnext : Bool} {uri metadata : Option String} {env : SetUriEnv}
    {code : UpnpCode} {avt : AVTransport} {w : World}
    (set : s.avt.setAVTransportURI help opts s.w setnext uri metadata env = (code, avt, w)) :
    s.setUri help opts setnext uri metadata env =
      if code = .success then
        { avt := avt, w := w, played := s.played.filter (· ≠ w.cli.m_lastinsertid.toNat)
          last := some w.cli.m_lastinsertid.toNat }
      else { s with avt := avt, w := w } := by
  unfold setUri
  rw [set]
  cases code <;> rfl

/-- An action which fails before it does anything but reset the modes. -/
theorem Owned.modesReset (owned : s.Owned) (opts : AvtOptions) (avt : AVTransport) {env : SetUriEnv}
    (smooth : env.Smooth) :
    Owned { s with avt := avt, w := AVTransport.resetModes opts s.w env } := by
  rw [AVTransport.resetModes_smooth smooth]
  refine ⟨fun _ => ⟨rfl, rfl, rfl⟩, owned.next, owned.inside, owned.order, owned.past, owned.qlen,
    owned.songpos, fun consume => ?_⟩
  exact owned.consume (Bool.and_eq_true_iff.mp consume).2

/-- A queue of which nothing has been played, with the player at its start. -/
theorem owned_of_fresh {t : OwnQueueRun} (plain : t.w.mpd.Plain)
    (next : t.w.mpd.queue.ids.drop 1 = [] ∨ t.w.mpd.queue.ids.drop 1 = t.last.toList)
    (first : t.w.mpd.songpos = none ∨ t.w.mpd.songpos = some 0 ∧ t.w.mpd.queue.ids ≠ [])
    (fresh : ∀ id ∈ t.w.mpd.queue.ids, id ∉ t.played)
    (qlen : (t.w.mpd.queue.ids.length : Int) ≤ t.w.cli.m_stat.qlen)
    (songpos : t.w.cli.m_stat.songpos ≤ 0 ∨ t.w.mpd.queue.ids = []) : t.Owned ∧ t.Bounded := by
  have start : ∀ pos ∈ t.w.mpd.songpos, pos = 0 ∧ t.w.mpd.queue.ids ≠ [] := by
    intro pos there
    rcases first with nowhere | ⟨zero, some⟩
    · rw [nowhere] at there
      cases there
    · rw [zero] at there
      cases there
      exact ⟨rfl, some⟩
  refine ⟨⟨fun _ => plain, next, fun pos there => ?_, ?_, fun pos there positive => ?_, qlen,
    fun behind => ?_, fun _ => fresh⟩, ⟨first.imp_right And.left, next, fresh⟩⟩
  · rw [(start pos there).1]
    exact List.length_pos_iff.mpr (start pos there).2
  · exact fun id member played => absurd played (fresh id member)
  · rw [(start pos there).1] at positive
    exact absurd positive (Nat.lt_irrefl 0)
  · rcases songpos with outside | none
    · omega
    · intro first there
      rw [none] at there
      cases there

/-- After SetAVTransportURI the queue has the new song, or none. -/
theorem owned_setUri (own : opts.ownQueue = true) (owned : s.Owned)
    {uri metadata : Option String} {env : SetUriEnv} (smooth : env.Smooth)
    (accepted : AVTransport.accepts help uri metadata = true) :
    (s.setUri help opts false uri metadata env).Owned ∧
      (s.setUri help opts false uri metadata env).Bounded := by
  obtain ⟨morphed, song, set⟩ :=
    AVTransport.setAVTransportURI_of_accepted help own s.avt s.w env accepted
  unfold MpdCli.clearQueue at set
  rw [MpdCli.command_smooth smooth.clear, AVTransport.resetModes_smooth smooth] at set
  dsimp only at set
  generalize cleared : World.mk s.w.cli _ = w at set
  have empty : w.mpd.queue.ids = [] := by
    rw [← cleared]
    rfl
  have nowhere : w.mpd.songpos = none := by
    rw [← cleared]
    rfl
  have plain : w.mpd.Plain := by
    rw [← cleared]
    exact ⟨rfl, rfl, rfl⟩
  have stat : w.cli.m_stat = s.w.cli.m_stat := by
    rw [← cleared]
  have qlen := owned.qlen
  obtain ⟨avt', track⟩ := AVTransport.insertTrack_current own s.avt w env morphed
    (metadata.getD "") song s.w.cli.m_stat.state 0
  rw [track] at set
  rcases MpdCli.insert_cases smooth.insert w morphed 0 song with
    ⟨failed, mpd, stat'⟩ | ⟨newid, id, last, told, same, -, -, ids, songpos⟩
  · rw [if_pos failed] at set
    rw [setUri_eq set, if_neg nofun]
    apply owned_of_fresh
    · show Mpd.Plain (MpdCli.insert w morphed ((0 : Nat) : Int) song env.insert).2.mpd
      rw [mpd]
      exact plain
    · dsimp only
      rw [mpd, empty]
      exact .inl rfl
    · dsimp only
      rw [mpd]
      exact .inl nowhere
    · dsimp only
      rw [mpd, empty]
      exact fun _ member => nomatch member
    · dsimp only
      rw [mpd, empty, stat', stat, List.length_nil]
      omega
    · dsimp only
      rw [mpd]
      exact .inr empty
  · rw [if_neg (by omega)] at set
    rw [empty, List.insertIdx_zero] at ids
    rw [nowhere, Option.map_none] at songpos
    obtain ⟨last', moved, first, qlen', outside⟩ := AVTransport.startTrack_smooth smooth opts
      s.w.cli.m_stat.state told (by rw [ids]; rfl) songpos
    have ids' := moved.ids.trans ids
    have newest : (AVTransport.startTrack opts
        (MpdCli.insert w morphed ((0 : Nat) : Int) song env.insert).2 s.w.cli.m_stat.state 0
        env).cli.m_lastinsertid.toNat = newid := by
      rw [last', last]
      rfl
    rw [setUri_eq set, if_pos rfl]
    apply owned_of_fresh
    · obtain ⟨_, _, _, player⟩ := moved
      dsimp only
      rw [player]
      exact ⟨same.rept.trans plain.rept, same.random.trans plain.random,
        same.single.trans plain.single⟩
    · dsimp only
      rw [ids']
      exact .inl rfl
    · refine first.imp_right fun zero => ⟨zero, ?_⟩
      rw [ids']
      exact List.cons_ne_nil _ _
    · dsimp only
      rw [ids', newest]
      intro id member played
      rw [List.mem_singleton.mp member] at played
      simp at played
    · dsimp only
      rw [ids', qlen']
      exact Int.le_refl 1
    · exact .inl outside

/-- What putting the next track behind a place of the queue comes to: MPD refuses it, or the
song is there. -/
inductive PutNext (s : OwnQueueRun) (w : World) (curpos : Nat) (t : OwnQueueRun) : Prop
  | refused (mpd : t.w.mpd = w.mpd) (stat : t.w.cli.m_stat = s.w.cli.m_stat)
      (played : t.played = s.played)
  | inserted (newid : Nat) (unused : newid ∉ w.mpd.queue.ids)
      (within : curpos + 1 ≤ w.mpd.queue.ids.length) (told : t.w.Told)
      (same : w.mpd.SamePlayer t.w.mpd)
      (ids : t.w.mpd.queue.ids = w.mpd.queue.ids.insertIdx (curpos + 1) newid)
      (songpos : t.w.mpd.songpos = w.mpd.songpos.map fun current =>
        if curpos + 1 ≤ current then current + 1 else current)
      (played : t.played = s.played.filter (· ≠ newid)) (last : t.last = some newid)

variable {t : OwnQueueRun} {w : World} {curpos : Nat}

/-- A played song which is the first of the queue stays there. -/
theorem not_bounded_putNext (owned : s.Owned)
    (played : ∃ id ∈ s.w.mpd.queue.ids, id ∈ s.played)
    (trimmed : w.mpd.queue.ids = s.w.mpd.queue.ids.take (curpos + 1) ∨
      s.w.cli.m_stat.qlen ≤ 1 ∧ w.mpd.queue.ids = s.w.mpd.queue.ids)
    (put : PutNext s w curpos t) : ¬ t.Bounded := by
  obtain ⟨id, member, left⟩ := played
  obtain ⟨first, rest, ids⟩ := List.exists_cons_of_ne_nil (List.ne_nil_of_mem member)
  have head : first ∈ s.played := owned.order id member left first (by rw [ids]; rfl)
  have stays : ∃ later, w.mpd.queue.ids = first :: later := by
    rcases trimmed with short | ⟨-, same⟩
    · rw [short, ids, List.take_succ_cons]
      exact ⟨_, rfl⟩
    · exact ⟨rest, same.trans ids⟩
  obtain ⟨later, kept⟩ := stays
  intro bounded
  cases put with
  | refused mpd _ before =>
      refine bounded.fresh first ?_ (before ▸ head)
      rw [mpd, kept]
      exact List.mem_cons_self
  | inserted newid unused _ _ _ inserted _ before _ =>
      rw [kept] at unused inserted
      refine bounded.fresh first ?_ ?_
      · rw [inserted, List.insertIdx_succ_cons]
        exact List.mem_cons_self
      · rw [before, List.mem_filter]
        have other : first ≠ newid := fun same => unused (same ▸ List.mem_cons_self)
        exact ⟨head, decide_eq_true other⟩

/-- A queue of which nothing has been played keeps its first song. -/
theorem owned_putNext (owned : s.Owned) (fresh : ∀ id ∈ s.w.mpd.queue.ids, id ∉ s.played)
    (plain : w.mpd.Plain) (place : curpos = s.w.cli.m_stat.songpos.toNat)
    (trimmed : w.mpd.queue.ids = s.w.mpd.queue.ids.take (curpos + 1) ∨
      s.w.cli.m_stat.qlen ≤ 1 ∧ w.mpd.queue.ids = s.w.mpd.queue.ids)
    (still : (∀ pos ∈ s.w.mpd.songpos, pos ≤ curpos) → w.mpd.songpos = s.w.mpd.songpos)
    (put : PutNext s w curpos t) : t.Owned ∧ t.Bounded := by
  have start := ((bounded_iff owned).mpr fresh).first
  have songpos : w.mpd.songpos = s.w.mpd.songpos := by
    apply still
    intro pos there
    rcases start with nowhere | zero
    · rw [nowhere] at there
      cases there
    · rw [zero] at there
      cases there
      exact Nat.zero_le _
  have qlen := owned.qlen
  cases ids : s.w.mpd.queue.ids with
  | nil =>
      have none : w.mpd.queue.ids = [] := by
        rcases trimmed with short | ⟨-, same⟩
        · rw [short, ids, List.take_nil]
        · exact same.trans ids
      have nowhere : s.w.mpd.songpos = Option.none := by
        cases there : s.w.mpd.songpos with
        | none => rfl
        | some pos =>
            have inside := owned.inside pos there
            rw [ids] at inside
            exact absurd inside (Nat.not_lt_zero pos)
      cases put with
      | refused mpd stat played =>
          rw [ids, List.length_nil] at qlen
          apply owned_of_fresh
          · rw [mpd]
            exact plain
          · rw [mpd, none]
            exact .inl rfl
          · rw [mpd, songpos]
            exact .inl nowhere
          · rw [mpd, none]
            exact fun _ member => nomatch member
          · rw [mpd, none, stat]
            exact qlen
          · rw [mpd]
            exact .inr none
      | inserted newid unused within =>
          rw [none] at within
          exact absurd within (Nat.not_succ_le_zero _)
  | cons first rest =>
      have outside : s.w.cli.m_stat.songpos ≤ 0 := by
        by_contra behind
        refine fresh first ?_ (owned.songpos (Int.not_le.mp behind) first ?_)
        · rw [ids]
          exact List.mem_cons_self
        · rw [ids]
          rfl
      have zero : curpos = 0 := by omega
      have one : w.mpd.queue.ids = [first] := by
        rw [ids] at trimmed qlen
        rcases trimmed with short | ⟨few, same⟩
        · rw [short, zero]
          rfl
        · have none : rest.length = 0 := by
            rw [List.length_cons] at qlen
            omega
          rw [same, List.length_eq_zero_iff.mp none]
      have unplayed : first ∉ s.played := by
        apply fresh
        rw [ids]
        exact List.mem_cons_self
      cases put with
      | refused mpd stat played =>
          apply owned_of_fresh
          · rw [mpd]
            exact plain
          · rw [mpd, one]
            exact .inl rfl
          · rw [mpd, songpos, one]
            exact start.imp_right fun zero => ⟨zero, List.cons_ne_nil _ _⟩
          · rw [mpd, one, played]
            intro id member
            rwa [List.mem_singleton.mp member]
          · rw [ids, List.length_cons] at qlen
            rw [mpd, one, stat, List.length_singleton]
            omega
          · rw [stat]
            exact .inl outside
      | inserted newid unused within told same ids' songpos' played last =>
          rw [one, zero] at ids'
          have two : t.w.mpd.queue.ids = [first, newid] := ids'
          have still' : t.w.mpd.songpos = s.w.mpd.songpos := by
            rw [songpos', songpos, zero]
            rcases start with nowhere | first
            · rw [nowhere]
              rfl
            · rw [first]
              rfl
          apply owned_of_fresh
          · exact ⟨same.rept.trans plain.rept, same.random.trans plain.random,
              same.single.trans plain.single⟩
          · rw [two, last]
            exact .inr rfl
          · rw [still', two]
            exact start.imp_right fun zero => ⟨zero, List.cons_ne_nil _ _⟩
          · rw [two, played]
            intro id member kept
            obtain ⟨left, other⟩ := List.mem_filter.mp kept
            rcases List.mem_cons.mp member with here | there
            · exact unplayed (here ▸ left)
            · exact of_decide_eq_true other (List.mem_singleton.mp there)
          · exact Int.le_of_eq told.qlen.symm
          · left
            rw [told.songpos, still']
            rcases start with nowhere | first
            · rw [nowhere]
              decide
            · rw [first]
              decide

/-- After SetNextAVTransportURI the queue still has its first song. -/
theorem owned_setNext (own : opts.ownQueue = true) (owned : s.Owned)
    {uri metadata : Option String} {env : SetUriEnv} (smooth : env.Smooth)
    (accepted : AVTransport.accepts help uri metadata = true) :
    let t := s.setUri help opts true uri metadata env
    (t.Bounded ↔ ∀ id ∈ s.w.mpd.queue.ids, id ∉ s.played) ∧ (t.Bounded → t.Owned) := by
  obtain ⟨morphed, song, set⟩ :=
    AVTransport.setNextAVTransportURI_of_accepted help own s.avt s.w env accepted
  by_cases empty : s.w.cli.m_stat.qlen = 0
  · rw [if_pos empty] at set
    rw [setUri_eq set, if_neg nofun]
    have kept := owned.modesReset opts s.avt smooth
    refine ⟨(bounded_iff kept).trans ?_, fun _ => kept⟩
    rw [AVTransport.resetModes_smooth smooth]
  · rw [if_neg empty] at set
    obtain ⟨cli, plain, trimmed, still⟩ :=
      AVTransport.trim_spec smooth opts s.w s.w.cli.m_stat.songpos.toNat
    generalize (if s.w.cli.m_stat.qlen > 1 then _ else _) = w at set cli plain trimmed still
    generalize curpos : s.w.cli.m_stat.songpos.toNat = place at set trimmed still
    obtain ⟨avt', track⟩ := AVTransport.insertTrack_next own s.avt w env morphed
      (metadata.getD "") song s.w.cli.m_stat.state place
    rw [track] at set
    have put : PutNext s w place (s.setUri help opts true uri metadata env) := by
      rcases MpdCli.insert_cases smooth.insert w morphed (place + 1) song with
        ⟨failed, mpd, stat⟩ | ⟨newid, id, last, told, same, unused, within, ids, songpos⟩
      · rw [if_pos failed] at set
        rw [setUri_eq set, if_neg nofun]
        exact .refused mpd (stat.trans (by rw [cli])) rfl
      · rw [if_neg (by omega)] at set
        rw [setUri_eq set, if_pos rfl]
        refine .inserted newid unused within told same ids songpos ?_ ?_
        · dsimp only
          rw [last]
          rfl
        · dsimp only
          rw [last]
          rfl
    by_cases fresh : ∀ id ∈ s.w.mpd.queue.ids, id ∉ s.played
    · obtain ⟨owned', bounded⟩ := owned_putNext owned fresh plain curpos.symm trimmed still put
      exact ⟨iff_of_true bounded fresh, fun _ => owned'⟩
    · have lost := not_bounded_putNext owned (by simpa using fresh) trimmed put
      exact ⟨iff_of_false lost fresh, fun bounded => absurd bounded lost⟩

theorem step_iff (own : opts.ownQueue = true) (owned : s.Owned) {action : OwnQueueAct}
    (smooth : action.Smooth) {t : OwnQueueRun} {out : Unit}
    (taken : s.step help opts action = some (t, out)) :
    (KeepsBound s action t out ↔ NonePlayed help s action t out) ∧
      (KeepsBound s action t out → t.Owned) := by
  cases action with
  | setUri setnext uri metadata env =>
      cases taken
      cases accepted : AVTransport.accepts help uri metadata with
      | false =>
          have set : s.avt.setAVTransportURI help opts s.w setnext uri metadata env =
              (.invalidParam, s.avt, s.w) :=
            AVTransport.setAVTransportURI_of_refused help s.avt s.w env setnext accepted
          have same : s.setUri help opts setnext uri metadata env = s := by
            rw [setUri_eq set, if_neg nofun]
          rw [same]
          refine ⟨(bounded_iff owned).trans ?_, fun _ => owned⟩
          show _ ↔ _ ∨ _
          rw [accepted, or_iff_right (fun clears => nomatch clears.2)]
      | true =>
          cases setnext with
          | false =>
              obtain ⟨owned', bounded⟩ := owned_setUri own owned smooth accepted
              exact ⟨iff_of_true bounded (.inl ⟨rfl, accepted⟩), fun _ => owned'⟩
          | true =>
              obtain ⟨same, owned'⟩ := owned_setNext own owned smooth accepted
              refine ⟨same.trans ?_, owned'⟩
              show _ ↔ _ ∨ _
              rw [or_iff_right (fun clears => nomatch clears.1)]
  | play env =>
      simp only [step] at taken
      split at taken
      · rename_i start
        cases taken
        exact ⟨Iff.rfl, fun _ => owned_play owned smooth start⟩
      · cases taken
  | next env =>
      simp only [step, MpdCli.next, MpdCli.command_smooth smooth] at taken
      cases moved : s.w.mpd.next env.first.newid with
      | none =>
          rw [moved] at taken
          cases taken
          exact ⟨Iff.rfl, fun _ => owned⟩
      | some mpd =>
          rw [moved] at taken
          cases taken
          exact ⟨Iff.rfl, fun _ => owned_leave owned moved⟩
  | advance chosen =>
      simp only [step] at taken
      split at taken
      · obtain ⟨mpd, moved, same⟩ := Option.map_eq_some_iff.mp taken
        cases same
        exact ⟨Iff.rfl, fun _ => owned_leave owned moved⟩
      · cases taken
  | updStatus env =>
      cases taken
      obtain ⟨told, same⟩ := MpdCli.told_updStatus smooth s.w
      exact ⟨Iff.rfl, fun _ => owned.told same told⟩

end Steps

/-- In a run whose commands succeed, the queue is bounded after each action exactly when
MPD has left no song of it before, unless the action clears it. -/
theorem keepsBound_iff (help : PlaylistHelp) (opts : AvtOptions) (own : opts.ownQueue = true)
    (mpd : Mpd) (actions : List OwnQueueAct) (smooth : ∀ action ∈ actions, action.Smooth) :
    Machine.Along KeepsBound (step help opts) (new mpd) actions ↔
      Machine.Along (NonePlayed help) (step help opts) (new mpd) actions := by
  apply Machine.along_iff_of_forall _ _ _ (owned_new mpd) smooth
  intro s action t out owned smooth taken
  exact step_iff own owned smooth taken

/-- Two tracks, and then another one for the second of them. -/
theorem keepsBound_two :
    let insert (newid : Nat) : SetUriEnv := { insert := { add := { first := { newid := newid } } } }
    Machine.Along KeepsBound (step .plain { ownQueue := true, autoplay := true }) (new {})
      [.setUri false (some "http://h/a") none (insert 1),
        .setUri true (some "http://h/b") none (insert 2), .updStatus {},
        .setUri true (some "http://h/c") none (insert 3), .next {}, .advance 0] :=
  (keepsBound_iff .plain { ownQueue := true, autoplay := true } rfl {} _ (by decide)).mpr
    (by decide)

/-- The third track comes while the second one plays. -/
theorem played_not_keepsBound :
    let insert (newid : Nat) : SetUriEnv := { insert := { add := { first := { newid := newid } } } }
    ¬ Machine.Along KeepsBound (step .plain { ownQueue := true, autoplay := true }) (new {})
      [.setUri false (some "http://h/a") none (insert 1),
        .setUri true (some "http://h/b") none (insert 2), .advance 0, .updStatus {},
        .setUri true (some "http://h/c") none (insert 3)] := by
  decide

end OwnQueueRun

end Upmpdcli
