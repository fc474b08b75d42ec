import Upmpdcli.Lib.Base64
import Upmpdcli.Lib.Machine
import Upmpdcli.MpdCliVersion
import Upmpdcli.OHPlaylistSwitch

set_option autoImplicit false

/- The id array and its token, over changes of the queue and switches of the source. -/
namespace Upmpdcli

/-- An array a control point got, with its token and the queue version it was made of. -/
structure GivenArray where
  token : Int
  version : Int
  array : String
deriving DecidableEq

/-- The playlist, with the version of the array which was frozen when the source was left,
and the arrays which `IdArray` returned. -/
structure TokenRun where
  pl : OHPlaylist
  w : World
  frozen : Int := 0
  given : List GivenArray := []
deriving DecidableEq

inductive TokenAct
  | edit (queue : MpdQueue)
  | updStatus (env : StatusEnv)
  | idArray (env : ListEnv)
  | idArrayChanged (token : Int)
  | leave (env : LeaveEnv)
  | comeBack (env : ComeBackEnv)

inductive TokenReply
  | none
  | array (token : Int) (array : String)
  | changed (value : String)
deriving DecidableEq

/-- The words of four bytes, the most significant one first. -/
def bigEndianWords : List UInt8 → Option (List Nat)
  | [] => some []
  | a :: b :: c :: d :: rest =>
      (bigEndianWords rest).map
        ((a.toNat * 2 ^ 24 + b.toNat * 2 ^ 16 + c.toNat * 2 ^ 8 + d.toNat) :: ·)
  | _ => none

namespace TokenRun

variable (help : PlaylistHelp)

/-- The version of the queue which the array of `IdArray` is made of now. -/
def version (s : TokenRun) : Int := if s.pl.m_active then s.w.cli.m_stat.qvers else s.frozen

/-- The ids of the queue the playlist has now: the one of MPD, or the saved one. -/
def ids (s : TokenRun) : List Nat :=
  if s.pl.m_active then s.w.mpd.queue.ids
  else s.pl.m_mpdsavedstate.queue.map fun song => song.mpdid.toNat

def step (s : TokenRun) : TokenAct → Option (TokenRun × TokenReply)
  | .edit queue => some ({ s with w := { s.w with mpd := s.w.mpd.setQueue queue } }, .none)
  | .updStatus env => some ({ s with w := (Upmpdcli.updStatus s.w env).1 }, .none)
  | .idArray env =>
      let (token, array, pl, w) := s.pl.iidArray help s.w env
      some ({ s with
        pl := pl, w := w, given := { token, version := s.version, array } :: s.given },
        .array token array)
  | .idArrayChanged token => some (s, .changed (OHPlaylist.idArrayChanged s.w token))
  | .leave env =>
      if s.pl.m_active then
        let (pl, w) := s.pl.leave help s.w env
        some ({ s with pl := pl, w := w, frozen := s.version }, .none)
      else none
  | .comeBack env =>
      if s.pl.m_active then none
      else
        let (pl, w) := s.pl.comeBack s.w env
        some ({ s with pl := pl, w := w }, .none)

/-- The title of the current song is not the one which is cached, as with radio streams:
then an empty array is sent on purpose. -/
def TitleChanged (s : TokenRun) : Prop :=
  let mpds := s.w.cli.m_stat
  mpds.qvers = s.pl.m_mpdqvers ∧ mpds.songid ≠ -1 ∧
    ∃ old ∈ s.pl.m_metacache.lookup mpds.currentsong.rsrc.uri,
      Smallut.contains old UpSong.origMpd = true ∧
      ¬ OHPlaylist.metaSameTitle help (UpSong.didlmake help.soap mpds.currentsong) old

/-- The client knows the queue MPD has, and shows it. -/
def Settled (s : TokenRun) : Prop :=
  s.w.cli.m_stat.qvers = s.w.mpd.vers ∧ ¬ s.TitleChanged help

variable (decode64 : String → Option (List UInt8))

/-- What is wanted of the two actions. -/
def Right (s : TokenRun) : TokenAct → TokenRun → TokenReply → Prop
  | .idArray _, _, .array _ array => (decode64 array).bind bigEndianWords = some s.ids
  | .idArrayChanged token, _, .changed value =>
      ∀ known ∈ s.given, known.token = token →
        (value = "1" ↔ s.version ≠ known.version) ∧
        (value ≠ "1" → (s.pl.m_active = true → s.Settled help) →
          (s.pl.iidArray help s.w {}).2.1 = known.array)
  | _, _, _ => True

/-- The condition on each step. -/
def Safe (s : TokenRun) : TokenAct → TokenRun → TokenReply → Prop
  | .idArray env, _, _ => s.pl.m_active = true → s.Settled help ∧ env.Smooth
  | .leave env, _, _ => s.Settled help ∧ env.Smooth
  | .idArrayChanged token, _, _ =>
      ∀ known ∈ s.given, known.token = token →
        s.version = known.version ∧ s.w.cli.m_stat.qvers ≠ token
  | _, _, _ => True

instance (s : TokenRun) : Decidable (s.TitleChanged help) :=
  inferInstanceAs (Decidable (_ ∧ _ ∧ ∃ old ∈ s.pl.m_metacache.lookup _, _))

instance (s : TokenRun) : Decidable (s.Settled help) := inferInstanceAs (Decidable (_ ∧ _))

instance (s : TokenRun) : ∀ action next reply, Decidable (Right help decode64 s action next reply)
  | .idArray _, _, .array _ _ => inferInstanceAs (Decidable (_ = _))
  | .idArrayChanged _, _, .changed _ => inferInstanceAs (Decidable (∀ known ∈ s.given, _))
  | .idArray _, _, .none | .idArray _, _, .changed _ => .isTrue trivial
  | .idArrayChanged _, _, .none | .idArrayChanged _, _, .array _ _ => .isTrue trivial
  | .edit _, _, _ | .updStatus _, _, _ | .leave _, _, _ | .comeBack _, _, _ => .isTrue trivial

instance (s : TokenRun) : ∀ action next reply, Decidable (Safe help s action next reply)
  | .idArray _, _, _ => inferInstanceAs (Decidable (_ → _ ∧ _))
  | .leave _, _, _ => inferInstanceAs (Decidable (_ ∧ _))
  | .idArrayChanged _, _, _ => inferInstanceAs (Decidable (∀ known ∈ s.given, _))
  | .edit _, _, _ | .updStatus _, _, _ | .comeBack _, _, _ => .isTrue trivial

end TokenRun

theorem bigEndianWords_idBytes {id : Nat} (positive : 0 < id) (small : id < 2 ^ 31)
    (rest : List UInt8) :
    bigEndianWords (OHPlaylist.idBytes id ++ rest) = (bigEndianWords rest).map (id :: ·) := by
  have value : unsigned id = id := by
    unfold unsigned
    rw [if_neg (by omega)]
    rfl
  unfold OHPlaylist.idBytes
  rw [value]
  dsimp only
  rw [if_neg (by omega)]
  simp only [List.cons_append, List.nil_append, bigEndianWords, UInt8.toNat_ofNat']
  congr 2
  funext words
  congr 1
  omega

/-- Reading the words of an id array gives the ids, in their order. -/
theorem bigEndianWords_ids {ids : List Nat} (numbered : ∀ id ∈ ids, 0 < id ∧ id < 2 ^ 31) :
    bigEndianWords (ids.flatMap fun id : Nat => OHPlaylist.idBytes id) = some ids := by
  induction ids with
  | nil => rfl
  | cons id rest ih =>
      have first := numbered id List.mem_cons_self
      rw [List.flatMap_cons, bigEndianWords_idBytes first.1 first.2,
        ih fun other member => numbered other (List.mem_cons_of_mem _ member)]
      rfl

namespace OHPlaylist

variable (help : PlaylistHelp)

/-- The id array of these ids. -/
def idsArray (ids : List Nat) : String :=
  help.base64_encode (ids.flatMap fun id : Nat => idBytes id)

theorem translateIdArray_mapSongs (q : MpdQueue) :
    translateIdArray help (MpdCli.mapSongs {} q.songs) = idsArray help q.ids := by
  have ids := MpdCli.mpdids_mapSongs {} q.songs
  unfold translateIdArray idsArray MpdQueue.ids
  congr 1
  calc (MpdCli.mapSongs {} q.songs).flatMap (fun song => idBytes song.mpdid)
      = ((MpdCli.mapSongs {} q.songs).map (·.mpdid)).flatMap idBytes := by rw [List.flatMap_map]
    _ = (q.songs.map fun song => (song.id : Int)).flatMap idBytes := by rw [ids]
    _ = (q.songs.map MpdSong.id).flatMap fun id : Nat => idBytes id := by
        rw [List.flatMap_map, List.flatMap_map]

/-- What `makeIdArray` gives when nothing disturbs it. -/
theorem makeIdArray_settled {pl : OHPlaylist} {w : World} {env : ListEnv}
    (current : w.cli.m_stat.qvers = w.mpd.vers)
    (cached : pl.m_mpdqvers = w.mpd.vers → pl.m_idArrayCached = idsArray help w.mpd.queue.ids)
    (sameTitle : pl.m_mpdqvers = w.mpd.vers → checkTitle help pl w.cli.m_stat =
      (pl.m_idArrayCached, pl)) (smooth : env.Smooth) :
    ∃ pl', makeIdArray help pl w env = (idsArray help w.mpd.queue.ids, pl', w) ∧
      pl'.m_active = pl.m_active ∧ pl'.m_mpdqvers = w.mpd.vers ∧
      pl'.m_idArrayCached = idsArray help w.mpd.queue.ids ∧
      pl'.m_mpdsavedstate = pl.m_mpdsavedstate := by
  unfold makeIdArray
  dsimp only
  by_cases same : w.cli.m_stat.qvers = pl.m_mpdqvers
  · have vers : pl.m_mpdqvers = w.mpd.vers := same.symm.trans current
    rw [if_pos same, sameTitle vers]
    exact ⟨pl, by rw [cached vers], rfl, vers, cached vers, rfl⟩
  · rw [if_neg same]
    unfold MpdCli.getQueueData MpdCli.getQueueSongs
    simp only [smooth.1, smooth.2, Mpd.edited, List.foldl_nil, if_true]
    unfold refreshCache
    rw [translateIdArray_mapSongs]
    dsimp only
    cases MpdCli.mapSongs {} w.mpd.queue.songs <;> dsimp only <;> split <;>
      exact ⟨_, rfl, rfl, current, rfl, rfl⟩

theorem makestate_of_inactive {pl : OHPlaylist} (inactive : pl.m_active = false) (w : World)
    (env : ListEnv) :
    makestate help pl w env = (VarMap.set pl.m_upnpstate "TransportState" "Stopped", pl, w) := by
  unfold makestate
  rw [inactive]
  rfl

theorem iidArray_of_inactive {pl : OHPlaylist} (inactive : pl.m_active = false) (w : World)
    (env : ListEnv) :
    iidArray help pl w env = (0, (pl.m_upnpstate.lookup "IdArray").getD "", pl, w) := by
  unfold iidArray
  rw [makestate_of_inactive help inactive]
  simp only [inactive, VarMap.lookup_set]
  rfl

/-- The state of an active playlist carries the array. -/
theorem makestate_of_active {pl pl' : OHPlaylist} (active : pl.m_active = true) {w w' : World}
    {env : ListEnv} {array : String} (made : makeIdArray help pl w env = (array, pl', w')) :
    ∃ st lastplayid, makestate help pl w env = (st, { pl' with m_lastplayid := lastplayid }, w') ∧
      st.lookup "IdArray" = some array := by
  unfold makestate
  rw [if_pos active, made]
  dsimp only
  split
  · exact ⟨_, _, rfl, rfl⟩
  · exact ⟨_, pl'.m_lastplayid, rfl, rfl⟩

end OHPlaylist

namespace MpdCli

theorem queue_saveState {env : SaveEnv} (status : env.status.Smooth) (list : env.list.Smooth)
    (w : World) (st : MpdState) :
    (saveState w st (-1) env).2.1.queue = mapSongs {} w.mpd.queue.songs := by
  obtain ⟨told, asked, mpd, -⟩ := updStatus_smooth status w
  unfold saveState getQueueData getQueueSongs
  rw [asked]
  simp only [list.1, list.2, Mpd.edited, List.foldl_nil, if_true, mpd]

end MpdCli

namespace TokenRun

variable (help : PlaylistHelp)

/-- An array of a version which MPD has had: that of its queue, if it has it still. -/
structure ArrayOf (w : World) (version : Int) (array : String) : Prop where
  past : version ≤ w.mpd.vers
  now : version = w.mpd.vers → array = OHPlaylist.idsArray help w.mpd.queue.ids

/-- While the source is left, the frozen array is that of the saved queue. -/
structure Frozen (s : TokenRun) : Prop where
  array : s.pl.m_upnpstate.lookup "IdArray" = some (OHPlaylist.idsArray help s.ids)
  made : ArrayOf help s.w s.frozen (OHPlaylist.idsArray help s.ids)
  given : ∀ known ∈ s.given, known.version = s.frozen →
    known.array = OHPlaylist.idsArray help s.ids
  numbered : ∀ id ∈ s.ids, 0 < id ∧ id < 2 ^ 31

/-- The version of every array tells the queue it was made of. -/
structure Good (s : TokenRun) : Prop where
  known : s.w.cli.m_stat.qvers ≤ s.w.mpd.vers
  cached : ArrayOf help s.w s.pl.m_mpdqvers s.pl.m_idArrayCached
  given : ∀ known ∈ s.given, ArrayOf help s.w known.version known.array
  frozen : s.pl.m_active = false → Frozen help s

variable {help} {s : TokenRun}

theorem ArrayOf.forward {w w' : World} {version : Int} {array : String}
    (made : ArrayOf help w version array) (moves : w.Forward w') : ArrayOf help w' version array := by
  have past := made.past
  have later := moves.later.1
  refine ⟨by omega, fun same => ?_⟩
  rw [made.now (by omega), moves.later.2 (by omega)]

theorem ids_of_inactive (inactive : s.pl.m_active = false) :
    s.ids = s.pl.m_mpdsavedstate.queue.map fun song => song.mpdid.toNat := by
  unfold ids
  rw [inactive]
  rfl

theorem ids_of_active (active : s.pl.m_active = true) : s.ids = s.w.mpd.queue.ids := by
  unfold ids
  rw [active]
  rfl

theorem version_of_active (active : s.pl.m_active = true) : s.version = s.w.cli.m_stat.qvers := by
  unfold version
  rw [active]
  rfl

theorem version_of_inactive (inactive : s.pl.m_active = false) : s.version = s.frozen := by
  unfold version
  rw [inactive]
  rfl

/-- Whatever else happens to MPD and its client. -/
theorem Good.forward (good : Good help s) {w : World} (moves : s.w.Forward w) :
    Good help { s with w := w } := by
  refine ⟨moves.known good.known, good.cached.forward moves,
    fun known member => (good.given known member).forward moves, fun inactive => ?_⟩
  have frozen := good.frozen inactive
  have same : ({ s with w := w } : TokenRun).ids = s.ids :=
    (ids_of_inactive inactive).trans (ids_of_inactive (s := s) inactive).symm
  exact ⟨by rw [same]; exact frozen.array, by rw [same]; exact frozen.made.forward moves,
    by rw [same]; exact frozen.given, by rw [same]; exact frozen.numbered⟩

/-- The array of an active playlist which is settled. -/
theorem makeIdArray_of_good (good : Good help s) (settled : s.Settled help) {env : ListEnv}
    (smooth : env.Smooth) :
    ∃ pl', OHPlaylist.makeIdArray help s.pl s.w env =
        (OHPlaylist.idsArray help s.w.mpd.queue.ids, pl', s.w) ∧
      pl'.m_active = s.pl.m_active ∧ pl'.m_mpdqvers = s.w.mpd.vers ∧
      pl'.m_idArrayCached = OHPlaylist.idsArray help s.w.mpd.queue.ids ∧
      pl'.m_mpdsavedstate = s.pl.m_mpdsavedstate := by
  refine OHPlaylist.makeIdArray_settled help settled.1 good.cached.now (fun vers => ?_) smooth
  have unchanged := settled.2
  unfold TitleChanged at unchanged
  dsimp only at unchanged
  rw [settled.1, vers] at unchanged
  unfold OHPlaylist.checkTitle
  dsimp only
  split
  · rename_i old found
    split at found
    · rename_i current
      rw [if_neg]
      rintro ⟨orig, other⟩
      exact unchanged ⟨rfl, current, old, found, orig, other⟩
    · cases found
  · rfl

/-- `IdArray`, and every event, of an active playlist which is settled. -/
theorem iidArray_of_good (good : Good help s) (active : s.pl.m_active = true)
    (settled : s.Settled help) {env : ListEnv} (smooth : env.Smooth) :
    ∃ pl', OHPlaylist.iidArray help s.pl s.w env =
        (s.w.cli.m_stat.qvers, OHPlaylist.idsArray help s.ids, pl', s.w) ∧
      pl'.m_active = true ∧ pl'.m_mpdqvers = s.w.mpd.vers ∧
      pl'.m_idArrayCached = OHPlaylist.idsArray help s.w.mpd.queue.ids := by
  obtain ⟨pl', made, still, vers, cached, -⟩ := makeIdArray_of_good good settled smooth
  obtain ⟨st, lastplayid, state, array⟩ := OHPlaylist.makestate_of_active help active made
  unfold OHPlaylist.iidArray
  rw [state]
  simp only [still, active, if_true, array, Option.getD_some, ids_of_active active]
  exact ⟨_, rfl, rfl, vers, cached⟩

theorem good_idArray {t : TokenRun} {env : ListEnv} {reply : TokenReply} (good : Good help s)
    (safe : s.pl.m_active = true → s.Settled help ∧ env.Smooth)
    (taken : step help s (.idArray env) = some (t, reply)) :
    Good help t ∧ ∃ token, reply = .array token (OHPlaylist.idsArray help s.ids) := by
  simp only [step] at taken
  cases active : s.pl.m_active with
  | true =>
      obtain ⟨settled, smooth⟩ := safe active
      obtain ⟨pl', answered, still, vers, cached⟩ := iidArray_of_good good active settled smooth
      rw [answered] at taken
      cases taken
      have made : ArrayOf help s.w s.w.mpd.vers (OHPlaylist.idsArray help s.w.mpd.queue.ids) :=
        ⟨Int.le_refl _, fun _ => rfl⟩
      refine ⟨⟨good.known, ?_, fun known member => ?_, fun inactive => ?_⟩, _, rfl⟩
      · dsimp only
        rw [vers, cached]
        exact made
      · rcases List.mem_cons.mp member with rfl | old
        · dsimp only
          rw [version_of_active active, settled.1, ids_of_active active]
          exact made
        · exact good.given known old
      · rw [show pl'.m_active = false from inactive] at still
        cases still
  | false =>
      have frozen := good.frozen active
      rw [OHPlaylist.iidArray_of_inactive help active, frozen.array] at taken
      cases taken
      have same (given : List GivenArray) : ({ s with given := given } : TokenRun).ids = s.ids := rfl
      refine ⟨⟨good.known, good.cached, fun known member => ?_, fun _ => ?_⟩, 0, rfl⟩
      · rcases List.mem_cons.mp member with rfl | old
        · dsimp only
          rw [version_of_inactive active]
          exact frozen.made
        · exact good.given known old
      · refine ⟨frozen.array, frozen.made, fun known member version => ?_, frozen.numbered⟩
        rcases List.mem_cons.mp member with rfl | old
        · rfl
        · exact frozen.given known old version

theorem good_leave {env : LeaveEnv} (good : Good help s) (active : s.pl.m_active = true)
    (settled : s.Settled help) (smooth : env.Smooth) :
    Good help { s with
      pl := (s.pl.leave help s.w env).1, w := (s.pl.leave help s.w env).2, frozen := s.version } := by
  obtain ⟨pl', made, still, vers, cached, -⟩ := makeIdArray_of_good good settled smooth.queue
  obtain ⟨st, lastplayid, state, array⟩ := OHPlaylist.makestate_of_active help active made
  have queue := MpdCli.queue_saveState smooth.status smooth.list s.w pl'.m_mpdsavedstate
  have moves : s.w.Forward (s.pl.leave help s.w env).2 := by
    unfold OHPlaylist.leave
    rw [state]
    exact (MpdCli.forward_saveState _ _ _ _).trans (MpdCli.forward_mode
      Mpd.stop (fun _ => rfl) (fun _ => rfl) _ env.stop)
  have left : ∃ saved, (s.pl.leave help s.w env).1 = { pl' with
      m_lastplayid := lastplayid, m_upnpstate := st, m_mpdsavedstate := saved
      m_active := false } ∧ saved.queue = MpdCli.mapSongs {} s.w.mpd.queue.songs := by
    unfold OHPlaylist.leave
    rw [state]
    exact ⟨_, rfl, queue⟩
  obtain ⟨saved, left, savedQueue⟩ := left
  have fresh : ArrayOf help s.w s.w.mpd.vers (OHPlaylist.idsArray help s.w.mpd.queue.ids) :=
    ⟨Int.le_refl _, fun _ => rfl⟩
  have ids : saved.queue.map (fun song => song.mpdid.toNat) = s.w.mpd.queue.ids := by
    have mapped := congrArg (List.map Int.toNat) (MpdCli.mpdids_mapSongs {} s.w.mpd.queue.songs)
    rw [List.map_map, List.map_map] at mapped
    rw [savedQueue]
    exact mapped
  have same : ({ s with
      pl := (s.pl.leave help s.w env).1, w := (s.pl.leave help s.w env).2
      frozen := s.version } : TokenRun).ids = s.w.mpd.queue.ids := by
    rw [ids_of_inactive (by dsimp only; rw [left])]
    dsimp only
    rw [left, ids]
  have version : s.version = s.w.mpd.vers := (version_of_active active).trans settled.1
  refine ⟨moves.known good.known, ?_, fun known member => (good.given known member).forward moves,
    fun _ => ⟨?_, ?_, fun known member frozen => ?_, ?_⟩⟩
  · dsimp only
    rw [left, vers, cached]
    exact fresh.forward moves
  · rw [same]
    dsimp only
    rw [left]
    exact array
  · rw [same]
    dsimp only
    rw [version]
    exact fresh.forward moves
  · rw [same]
    exact (good.given known member).now (frozen.trans version)
  · rw [same]
    intro id member
    obtain ⟨song, listed, rfl⟩ := List.mem_map.mp member
    exact s.w.mpd.queue.numbered song listed

theorem good_step {t : TokenRun} {action : TokenAct} {reply : TokenReply} (good : Good help s)
    (safe : Safe help s action t reply) (taken : step help s action = some (t, reply)) :
    Good help t := by
  cases action with
  | edit queue =>
      cases taken
      exact good.forward (World.forward_of_later rfl (s.w.mpd.later_edited [queue]))
  | updStatus env =>
      cases taken
      exact good.forward (MpdCli.forward_updStatus s.w env)
  | idArray env => exact (good_idArray good safe taken).1
  | idArrayChanged token =>
      cases taken
      exact good
  | leave env =>
      simp only [step] at taken
      split at taken
      · rename_i active
        cases taken
        exact good_leave good active safe.1 safe.2
      · cases taken
  | comeBack env =>
      simp only [step] at taken
      split at taken
      · cases taken
      · cases taken
        have moves : s.w.Forward (s.pl.comeBack s.w env).2 :=
          (MpdCli.forward_clearQueue s.w env.clear).trans (MpdCli.forward_restoreState _ _ _)
        have moved := good.forward moves
        exact ⟨moved.known, moved.cached, moved.given, fun inactive => by cases inactive⟩

/-- The ids of the queue are numbers of 31 bits. -/
theorem numbered_ids (good : Good help s) : ∀ id ∈ s.ids, 0 < id ∧ id < 2 ^ 31 := by
  cases active : s.pl.m_active with
  | true =>
      rw [ids_of_active active]
      intro id member
      obtain ⟨song, listed, rfl⟩ := List.mem_map.mp member
      exact s.w.mpd.queue.numbered song listed
  | false => exact (good.frozen active).numbered

variable {decode64 : String → Option (List UInt8)}

theorem right_of_safe (inverse : ∀ bytes, decode64 (help.base64_encode bytes) = some bytes)
    {t : TokenRun} {action : TokenAct} {reply : TokenReply} (good : Good help s)
    (safe : Safe help s action t reply) (taken : step help s action = some (t, reply)) :
    Right help decode64 s action t reply := by
  cases action with
  | idArray env =>
      obtain ⟨-, token, rfl⟩ := good_idArray good safe taken
      show (decode64 (OHPlaylist.idsArray help s.ids)).bind bigEndianWords = some s.ids
      rw [OHPlaylist.idsArray, inverse, Option.bind_some, bigEndianWords_ids (numbered_ids good)]
  | idArrayChanged token =>
      cases taken
      intro known member same
      obtain ⟨version, other⟩ := safe known member same
      have answer : OHPlaylist.idArrayChanged s.w token ≠ "1" := by
        unfold OHPlaylist.idArrayChanged flag
        simp [other]
      refine ⟨⟨fun yes => absurd yes answer, fun differs => absurd version differs⟩,
        fun _ settled => ?_⟩
      cases active : s.pl.m_active with
      | true =>
          have smooth : ListEnv.Smooth {} := ⟨rfl, rfl⟩
          obtain ⟨_, answered, -⟩ := iidArray_of_good good active (settled active) smooth
          rw [answered, ids_of_active active, (good.given known member).now]
          rw [← version, version_of_active active, (settled active).1]
      | false =>
          have frozen := good.frozen active
          rw [OHPlaylist.iidArray_of_inactive help active, frozen.array]
          exact (frozen.given known member (version.symm.trans (version_of_inactive active))).symm
  | edit queue => trivial
  | updStatus env => trivial
  | leave env => trivial
  | comeBack env => trivial

variable (help) in
/-- The start of the program, with the cache which was restored from its file. -/
def start (cache : List (String × String)) (mpd : Mpd) : TokenRun :=
  { pl := { m_metacache := cache }, w := { mpd := mpd } }

theorem good_start (cache : List (String × String)) (mpd : Mpd) : Good help (start cache mpd) := by
  have unknown : (-1 : Int) ≤ mpd.vers := by omega
  refine ⟨unknown, ⟨unknown, fun same => ?_⟩, fun _ absurd => (nomatch absurd),
    fun inactive => by cases inactive⟩
  have vers : (-1 : Int) = mpd.vers := same
  omega

/-- In every run whose steps meet the condition, the arrays are those of the queue, and the
answer about a change is the right one. -/
theorem idArray_right (help : PlaylistHelp) (decode64 : String → Option (List UInt8))
    (inverse : ∀ bytes, decode64 (help.base64_encode bytes) = some bytes)
    (cache : List (String × String)) (mpd : Mpd) (actions : List TokenAct)
    (safe : Machine.Along (Safe help) (step help) (start cache mpd) actions) :
    Machine.Along (Right help decode64) (step help) (start cache mpd) actions := by
  have preserve (s : TokenRun) (a : TokenAct) (t : TokenRun) (b : TokenReply) (good : Good help s)
      (safe : Safe help s a t b) (taken : step help s a = some (t, b)) :
      Good help t ∧ Right help decode64 s a t b :=
    ⟨good_step good safe taken, right_of_safe inverse good safe taken⟩
  exact Machine.along_of_invariant preserve _ actions (good_start cache mpd) safe

/-- A library of base64 which works as it should. -/
def helpBase64 : PlaylistHelp := { PlaylistHelp.plain with base64_encode := Base64.encode }

/-- Reading the array, leaving the source, and asking while another one is active. -/
def readAndLeave : List TokenAct :=
  [.edit InsertAct.queueOne, .updStatus {}, .idArray {}, .leave {}, .idArray {},
    .edit .empty, .updStatus {}, .idArrayChanged 0]

theorem idArray_right_left :
    Machine.Along (Right helpBase64 Base64.decode) (step helpBase64) (start [] {}) readAndLeave :=
  idArray_right helpBase64 Base64.decode Base64.decode_encode [] {} readAndLeave (by decide)

/-- The queue does not change after `IdArray`, and `IdArrayChanged` says that it did. -/
theorem idArrayChanged_wrong :
    ¬ ∀ (cache : List (String × String)) (mpd : Mpd) (actions : List TokenAct),
      Machine.Along (Right helpBase64 Base64.decode) (step helpBase64) (start cache mpd) actions := by
  intro always
  have wrong := always [] {}
    [.edit InsertAct.queueOne, .updStatus {}, .idArray {}, .idArrayChanged 2]
  revert wrong
  decide

end TokenRun

end Upmpdcli
