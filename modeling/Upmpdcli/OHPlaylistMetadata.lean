import Upmpdcli.Lib.Machine
import Upmpdcli.OHPlaylistCache

set_option autoImplicit false

/- The metadata cache of an active playlist while insertions, refreshes of the id array and
reads are in progress. The state mutex is held by a refresh from its beginning to its end,
and by `cacheSet` and `cacheFind`; the lock of the MPD client makes each of its operations
one step. -/
namespace Upmpdcli

/-- An insertion between its `cacheSet` and the command to MPD. -/
structure PendingInsert where
  afterid : Int
  uri : String
  metadata : String
  song : UpSong
deriving DecidableEq

/-- An insertion which has succeeded. -/
structure InsertedTrack where
  id : Nat
  uri : String
  metadata : String
deriving DecidableEq

/-- Where the refresh is: it has seen that the queue has another version, or it has the
queue too. -/
inductive Refresh
  | idle
  | reading (mpds : MpdStatus)
  | rebuilding (mpds : MpdStatus) (vdata : List UpSong)
deriving DecidableEq

/-- The playlist at work. Two lists keep what the actions have done: the metadata each uri
was last inserted with, and the tracks which were inserted, as long as they stay in the
queue. -/
structure PlaylistRun where
  w : World
  pl : OHPlaylist
  pending : List PendingInsert := []
  refresh : Refresh := .idle
  given : List (String × String) := []
  inserted : List InsertedTrack := []
deriving DecidableEq

inductive PlaylistAct
  | insertStart (afterid : Int) (uri metadata : String)
  | insertEnd (index : Nat) (env : InsertAfterEnv)
  | updStatus (env : StatusEnv)
  | edit (queue : MpdQueue)
  | refreshStart
  | refreshRead (env : ListEnv)
  | refreshEnd
  | read (id : Int) (answered : Bool)
  | readList (sids : String) (failed : List String)

/-- What a control point gets back. -/
inductive PlaylistReply
  | none
  | inserted (id : Option Int)
  | read (result : Option (String × String))
  | trackList (entries : List TrackEntry)
deriving DecidableEq

def Mpd.Holds (m : Mpd) (id : Nat) (uri : String) : Prop :=
  ∃ song ∈ m.queue.songs, song.id = id ∧ song.uri = uri

instance (m : Mpd) (id : Nat) (uri : String) : Decidable (m.Holds id uri) :=
  inferInstanceAs (Decidable (∃ song ∈ m.queue.songs, _))

/-- If this is a read of the track for which MPD answers, it gives this metadata. -/
def InsertedTrack.Reads (track : InsertedTrack) (metadata : String) :
    PlaylistAct → PlaylistReply → Prop
  | .read id answered, .read result =>
      answered = true ∧ id = track.id → result = some (track.uri, metadata)
  | .readList sids failed, .trackList entries =>
      ∀ token ∈ Smallut.stringToTokens sids, token ∉ failed ∧ Smallut.atoi token = track.id →
        ⟨token, track.uri, metadata⟩ ∈ entries
  | _, _ => True

instance (track : InsertedTrack) (metadata : String) :
    ∀ action reply, Decidable (track.Reads metadata action reply)
  | .read _ _, .read _ => inferInstanceAs (Decidable (_ → _))
  | .readList _ _, .trackList _ => inferInstanceAs (Decidable (∀ token ∈ _, _))
  | .read _ _, .none | .read _ _, .inserted _ | .read _ _, .trackList _ => .isTrue trivial
  | .readList _ _, .none | .readList _ _, .inserted _ | .readList _ _, .read _ => .isTrue trivial
  | .insertStart .., _ | .insertEnd .., _ | .updStatus _, _ | .edit _, _ => .isTrue trivial
  | .refreshStart, _ | .refreshRead _, _ | .refreshEnd, _ => .isTrue trivial

namespace PlaylistRun

variable (help : PlaylistHelp)

/-- The tracks which have left the queue are forgotten. -/
def settle (s : PlaylistRun) : PlaylistRun :=
  { s with inserted := s.inserted.filter fun track => s.w.mpd.Holds track.id track.uri }

/-- The `Insert` action up to its `cacheSet`. -/
def startInsert (s : PlaylistRun) (afterid : Int) (uri metadata : String) :
    Option (PlaylistRun × PlaylistReply) :=
  match help.morphSpecialUrl uri with
  | none => some (s, .inserted none)
  | some (uri, nocheck) =>
      match s.pl.startInsert help uri metadata nocheck with
      | none => some (s, .inserted none)
      | some (song, pl) =>
          some ({ s with
            pl := pl
            pending := s.pending ++ [{ afterid, uri, metadata, song }]
            given := VarMap.set s.given uri metadata }, .none)

/-- The end of the `Insert` action. -/
def endInsert (s : PlaylistRun) (index : Nat) (env : InsertAfterEnv) :
    Option (PlaylistRun × PlaylistReply) :=
  match s.pending[index]? with
  | none => none
  | some p =>
      let (id, w) := MpdCli.insertAfterId s.w p.uri p.afterid p.song env
      let s := { s with w := w, pending := s.pending.eraseIdx index }
      if id ≠ -1 then
        let track : InsertedTrack := { id := id.toNat, uri := p.uri, metadata := p.metadata }
        some (settle { s with inserted := track :: s.inserted }, .inserted (some id))
      else some (s.settle, .inserted none)

def startRefresh (s : PlaylistRun) : PlaylistRun :=
  let mpds := s.w.cli.m_stat
  if mpds.qvers = s.pl.m_mpdqvers then { s with pl := (s.pl.checkTitle help mpds).2 }
  else { s with refresh := .reading mpds }

def readQueue (s : PlaylistRun) (mpds : MpdStatus) (env : ListEnv) : PlaylistRun :=
  match MpdCli.getQueueData s.w env with
  | (none, w) => settle { s with w := w, refresh := .idle }
  | (some vdata, w) => settle { s with w := w, refresh := .rebuilding mpds vdata }

def endRefresh (s : PlaylistRun) (mpds : MpdStatus) (vdata : List UpSong) : PlaylistRun :=
  { s with pl := (s.pl.refreshCache help mpds vdata).2, refresh := .idle }

/-- What needs the state mutex waits for the end of the refresh. -/
def step (s : PlaylistRun) : PlaylistAct → Option (PlaylistRun × PlaylistReply)
  | .insertStart afterid uri metadata =>
      if s.refresh = .idle then s.startInsert help afterid uri metadata else none
  | .insertEnd index env => s.endInsert index env
  | .updStatus env => some (settle { s with w := (Upmpdcli.updStatus s.w env).1 }, .none)
  | .edit queue => some (settle { s with w := { s.w with mpd := s.w.mpd.setQueue queue } }, .none)
  | .refreshStart => if s.refresh = .idle then some (s.startRefresh help, .none) else none
  | .refreshRead env =>
      match s.refresh with
      | .reading mpds => some (s.readQueue mpds env, .none)
      | .idle | .rebuilding _ _ => none
  | .refreshEnd =>
      match s.refresh with
      | .rebuilding mpds vdata => some (s.endRefresh help mpds vdata, .none)
      | .idle | .reading _ => none
  | .read id answered =>
      if s.refresh = .idle then
        let (_, result, pl) := s.pl.ohread help s.w id answered
        some ({ s with pl := pl }, .read result)
      else none
  | .readList sids failed =>
      if s.refresh = .idle then
        let (entries, pl) := s.pl.readEntries help s.w failed (Smallut.stringToTokens sids)
        some ({ s with pl := pl }, .trackList entries)
      else none

/-- A read of an inserted track for which MPD answers gives the metadata its uri was last
inserted with. -/
def ReadsBack (s : PlaylistRun) (action : PlaylistAct) (_ : PlaylistRun)
    (reply : PlaylistReply) : Prop :=
  ∀ track ∈ s.inserted, ∃ metadata, s.given.lookup track.uri = some metadata ∧
    track.Reads metadata action reply

/-- A read of an inserted track would give the metadata it was itself inserted with. -/
def ReadsOwn (s : PlaylistRun) (action : PlaylistAct) (_ : PlaylistRun)
    (reply : PlaylistReply) : Prop :=
  ∀ track ∈ s.inserted, track.Reads track.metadata action reply

instance (s : PlaylistRun) (action : PlaylistAct) (t : PlaylistRun) (reply : PlaylistReply) :
    Decidable (ReadsOwn s action t reply) :=
  inferInstanceAs (Decidable (∀ track ∈ s.inserted, _))

/-- The condition on each step. -/
def Safe (s : PlaylistRun) (action : PlaylistAct) (_ : PlaylistRun) (_ : PlaylistReply) : Prop :=
  match action with
  | .insertStart _ uri metadata =>
      (∀ morphed ∈ help.morphSpecialUrl uri, looksLikeTransportURI morphed.1 = true) ∧
        Smallut.contains metadata UpSong.origMpd = false
  | .refreshRead env =>
      env.answered = true → ∀ p ∈ s.pending,
        ∃ song ∈ (s.w.mpd.edited env.edits).queue.songs, mapUri song.uri = p.uri
  | _ => True

end PlaylistRun

namespace OHPlaylist

/-- What a read does to the cache: nothing that is there changes. -/
def Extends (pl pl' : OHPlaylist) : Prop :=
  pl'.m_active = pl.m_active ∧
    ∀ uri metadata, pl.m_metacache.lookup uri = some metadata →
      pl'.m_metacache.lookup uri = some metadata

theorem Extends.refl (pl : OHPlaylist) : pl.Extends pl := ⟨rfl, fun _ _ found => found⟩

theorem Extends.trans {pl pl' pl'' : OHPlaylist} (first : pl.Extends pl')
    (second : pl'.Extends pl'') : pl.Extends pl'' :=
  ⟨second.1.trans first.1, fun uri metadata found =>
    second.2 uri metadata (first.2 uri metadata found)⟩

variable (help : PlaylistHelp)

theorem extends_songMetadata (pl : OHPlaylist) (song : UpSong) :
    pl.Extends (pl.songMetadata help song).2 := by
  unfold songMetadata
  cases found : pl.cacheFind song.rsrc.uri with
  | some metadata => exact .refl pl
  | none =>
      refine ⟨rfl, fun uri metadata there => ?_⟩
      have other : uri ≠ song.rsrc.uri := by
        rintro rfl
        rw [cacheFind, there] at found
        cases found
      simp only [cacheSet, VarMap.lookup_set, if_neg other, there]

theorem songMetadata_of_lookup {pl : OHPlaylist} {song : UpSong} {metadata : String}
    (found : pl.m_metacache.lookup song.rsrc.uri = some metadata) :
    (pl.songMetadata help song).1 = metadata := by
  unfold songMetadata cacheFind
  rw [found]

theorem extends_ohread (pl : OHPlaylist) (w : World) (id : Int) (answered : Bool) :
    pl.Extends (pl.ohread help w id answered).2.2 := by
  unfold ohread
  split
  · split
    · exact .refl pl
    · exact pl.extends_songMetadata help _
  · split
    · exact .refl pl
    · exact .refl pl

theorem extends_readEntry (pl : OHPlaylist) (w : World) (token : String) (answered : Bool) :
    pl.Extends (pl.readEntry help w token answered).2 := by
  unfold readEntry
  dsimp only
  split
  · exact .refl pl
  · split
    · split
      · exact .refl pl
      · exact pl.extends_songMetadata help _
    · split
      · exact .refl pl
      · exact .refl pl

theorem extends_readEntries (pl : OHPlaylist) (w : World) (failed tokens : List String) :
    pl.Extends (pl.readEntries help w failed tokens).2 := by
  induction tokens generalizing pl with
  | nil => exact .refl pl
  | cons token rest ih => exact (pl.extends_readEntry help w token _).trans (ih _)

/-- MPD knows an inserted track by its id, and the program shows its uri unchanged. -/
theorem statSong_of_holds {w : World} {id : Nat} {uri : String} (held : w.mpd.Holds id uri)
    (transport : looksLikeTransportURI uri = true) :
    ∃ song, statSong w id true = some song ∧ song.rsrc.uri = uri := by
  obtain ⟨song, member, sameId, sameUri⟩ := held
  have wanted : decide (song.id = unsigned id) = true := by
    rw [decide_eq_true_eq, sameId]
    rfl
  cases found : w.mpd.queue.songs.find? (fun song => song.id = unsigned id) with
  | none => exact absurd wanted (List.find?_eq_none.mp found song member)
  | some first =>
      have sameFirst : first.id = song.id := by
        have there := List.find?_some found
        rw [decide_eq_true_eq] at there wanted
        rw [there, wanted]
      have same := List.inj_on_of_nodup_map w.mpd.queue.distinct
        (List.mem_of_find?_eq_some found) member sameFirst
      subst same
      refine ⟨mapSong {} first, ?_, ?_⟩
      · unfold statSong
        rw [if_pos rfl, found, Option.map_some]
      · show mapUri first.uri = uri
        rw [sameUri, mapUri_of_looksLikeTransportURI transport]

theorem ohread_of_holds {pl : OHPlaylist} (active : pl.m_active = true) {w : World} {id : Nat}
    {uri metadata : String} (held : w.mpd.Holds id uri)
    (transport : looksLikeTransportURI uri = true)
    (found : pl.m_metacache.lookup uri = some metadata) :
    (pl.ohread help w id true).2.1 = some (uri, metadata) := by
  obtain ⟨song, known, rfl⟩ := statSong_of_holds held transport
  unfold ohread
  rw [if_pos active, known]
  dsimp only
  rw [songMetadata_of_lookup help found]

theorem mem_readEntries {pl : OHPlaylist} (active : pl.m_active = true) {w : World} {id : Nat}
    {uri metadata : String} (held : w.mpd.Holds id uri)
    (transport : looksLikeTransportURI uri = true)
    (found : pl.m_metacache.lookup uri = some metadata) {failed tokens : List String}
    {token : String} (asked : token ∈ tokens) (answered : token ∉ failed)
    (same : Smallut.atoi token = id) :
    ⟨token, uri, metadata⟩ ∈ (pl.readEntries help w failed tokens).1 := by
  induction tokens generalizing pl with
  | nil => cases asked
  | cons first rest ih =>
      unfold readEntries
      dsimp only
      rw [List.mem_append]
      rcases List.mem_cons.mp asked with rfl | later
      · left
        obtain ⟨song, known, rfl⟩ := statSong_of_holds held transport
        unfold readEntry
        dsimp only
        rw [same, if_neg (by omega), if_pos active, decide_eq_true answered, known]
        dsimp only
        rw [songMetadata_of_lookup help found]
        simp
      · right
        have kept := pl.extends_readEntry help w first (first ∉ failed)
        exact ih (kept.1.trans active) (kept.2 _ _ found) later

/-- A change of title only touches metadata which came from MPD. -/
theorem checkTitle_keeps {pl : OHPlaylist} {mpds : MpdStatus} {uri metadata : String}
    (found : pl.m_metacache.lookup uri = some metadata)
    (clean : Smallut.contains metadata UpSong.origMpd = false) :
    (pl.checkTitle help mpds).2.m_metacache.lookup uri = some metadata := by
  unfold checkTitle
  dsimp only
  split
  · rename_i old cached
    split
    · rename_i changed
      have other : uri ≠ mpds.currentsong.rsrc.uri := by
        rintro rfl
        split at cached
        · rw [found, Option.some.injEq] at cached
          rw [cached, changed.1] at clean
          cases clean
        · cases cached
      simp only [VarMap.lookup_set, if_neg other, found]
    · exact found
  · exact found

theorem active_checkTitle (pl : OHPlaylist) (mpds : MpdStatus) :
    (pl.checkTitle help mpds).2.m_active = pl.m_active := by
  unfold checkTitle
  dsimp only
  split
  · split <;> rfl
  · rfl

theorem refreshCache_keeps {pl : OHPlaylist} {mpds : MpdStatus} {vdata : List UpSong}
    {uri metadata : String} (found : pl.m_metacache.lookup uri = some metadata)
    (queued : uri ∈ vdata.map (·.rsrc.uri)) :
    (pl.refreshCache help mpds vdata).2.m_metacache.lookup uri = some metadata := by
  have kept (pl' : OHPlaylist) (same : pl'.m_metacache = pl.m_metacache) :
      (pl'.refreshMetacache help vdata).m_metacache.lookup uri = some metadata := by
    obtain ⟨usong, listed, here⟩ := List.mem_map.mp queued
    have queued : (vdata.find? fun usong => usong.rsrc.uri = uri) ≠ none := by
      rw [Option.ne_none_iff_isSome, List.find?_isSome]
      exact ⟨usong, listed, decide_eq_true here⟩
    obtain ⟨first, there⟩ := Option.ne_none_iff_exists'.mp queued
    rw [lookup_refreshMetacache, there, same, found, Option.map_some, Option.getD_some]
  unfold refreshCache
  cases vdata with
  | nil => cases queued
  | cons first rest =>
      dsimp only
      split
      · exact kept _ rfl
      · exact found

theorem active_refreshCache (pl : OHPlaylist) (mpds : MpdStatus) (vdata : List UpSong) :
    (pl.refreshCache help mpds vdata).2.m_active = pl.m_active := by
  unfold refreshCache
  cases vdata <;> dsimp only <;> split <;> rfl

end OHPlaylist

namespace PlaylistRun

/-- The uris whose metadata must not be lost. -/
def wanted (s : PlaylistRun) : List String :=
  s.pending.map PendingInsert.uri ++ s.inserted.map InsertedTrack.uri

structure Kept (s : PlaylistRun) : Prop where
  active : s.pl.m_active = true
  clean : ∀ uri metadata, s.given.lookup uri = some metadata →
    Smallut.contains metadata UpSong.origMpd = false
  cached : ∀ uri ∈ s.wanted, looksLikeTransportURI uri = true ∧
    ∃ metadata, s.given.lookup uri = some metadata ∧
      s.pl.m_metacache.lookup uri = some metadata
  queued : ∀ track ∈ s.inserted, s.w.mpd.Holds track.id track.uri
  read : ∀ mpds vdata, s.refresh = .rebuilding mpds vdata →
    ∀ uri ∈ s.wanted, uri ∈ vdata.map (·.rsrc.uri)

theorem wanted_settle (s : PlaylistRun) : s.settle.wanted ⊆ s.wanted := by
  intro uri member
  rcases List.mem_append.mp member with pending | inserted
  · exact List.mem_append_left _ pending
  · apply List.mem_append_right
    obtain ⟨track, kept, rfl⟩ := List.mem_map.mp inserted
    exact List.mem_map_of_mem (List.mem_of_mem_filter kept)

theorem queued_settle (s : PlaylistRun) :
    ∀ track ∈ s.settle.inserted, s.w.mpd.Holds track.id track.uri :=
  fun _ member => of_decide_eq_true (List.mem_filter.mp member).2

variable (help : PlaylistHelp)

/-- Less may be wanted, and the cache may have more. -/
theorem Kept.of_extends {s t : PlaylistRun} (kept : Kept s) (grows : s.pl.Extends t.pl)
    (given : t.given = s.given) (fewer : t.wanted ⊆ s.wanted)
    (queued : ∀ track ∈ t.inserted, t.w.mpd.Holds track.id track.uri)
    (read : ∀ mpds vdata, t.refresh = .rebuilding mpds vdata →
      ∀ uri ∈ t.wanted, uri ∈ vdata.map (·.rsrc.uri)) : Kept t := by
  refine ⟨grows.1.trans kept.active, given ▸ kept.clean, fun uri member => ?_, queued, read⟩
  obtain ⟨transport, metadata, last, cached⟩ := kept.cached uri (fewer member)
  exact ⟨transport, metadata, given ▸ last, grows.2 uri metadata cached⟩

theorem kept_settle {s : PlaylistRun} (kept : Kept s) (w : World) (refresh : Refresh)
    (read : ∀ mpds vdata, refresh = .rebuilding mpds vdata →
      ∀ uri ∈ (settle { s with w := w, refresh := refresh }).wanted,
        uri ∈ vdata.map (·.rsrc.uri)) :
    Kept (settle { s with w := w, refresh := refresh }) :=
  kept.of_extends (.refl _) rfl (wanted_settle { s with w := w, refresh := refresh })
    (queued_settle { s with w := w, refresh := refresh }) read

theorem kept_world {s : PlaylistRun} (kept : Kept s) (w : World) :
    Kept (settle { s with w := w }) := by
  apply kept_settle kept w s.refresh
  intro mpds vdata rebuilding uri member
  exact kept.read mpds vdata rebuilding uri (wanted_settle { s with w := w } member)

/-- An insertion which begins gives the cache and the record the same metadata. -/
theorem kept_startInsert {s t : PlaylistRun} {reply : PlaylistReply} (kept : Kept s)
    (idle : s.refresh = .idle) {afterid : Int} {uri metadata : String}
    (transport : ∀ morphed ∈ help.morphSpecialUrl uri, looksLikeTransportURI morphed.1 = true)
    (clean : Smallut.contains metadata UpSong.origMpd = false)
    (taken : s.startInsert help afterid uri metadata = some (t, reply)) : Kept t := by
  unfold startInsert at taken
  cases morphed : help.morphSpecialUrl uri with
  | none =>
      rw [morphed] at taken
      cases taken
      exact kept
  | some result =>
      obtain ⟨uri, nocheck⟩ := result
      have looks := transport _ morphed
      rw [morphed] at taken
      unfold OHPlaylist.startInsert at taken
      dsimp only at taken looks
      cases checked : help.checkContentFormat uri metadata nocheck with
      | none =>
          rw [checked] at taken
          cases taken
          exact kept
      | some song =>
          rw [checked] at taken
          cases taken
          refine ⟨kept.active, fun other found last => ?_, fun other member => ?_, kept.queued, ?_⟩
          · rw [VarMap.lookup_set] at last
            split at last
            · cases last
              exact clean
            · exact kept.clean other found last
          · simp only [OHPlaylist.cacheSet, VarMap.lookup_set]
            by_cases here : other = uri
            · subst here
              exact ⟨looks, metadata, by rw [if_pos rfl], by rw [if_pos rfl]⟩
            · rw [if_neg here, if_neg here]
              apply kept.cached
              simp only [wanted, List.map_append, List.map_cons, List.map_nil, List.mem_append,
                List.mem_singleton] at member ⊢
              rcases member with (old | new) | inserted
              · exact .inl old
              · exact absurd new here
              · exact .inr inserted
          · intro mpds vdata rebuilding
            rw [idle] at rebuilding
            cases rebuilding

theorem wanted_eraseIdx (s : PlaylistRun) (w : World) (index : Nat) :
    (PlaylistRun.mk w s.pl (s.pending.eraseIdx index) s.refresh s.given s.inserted).wanted ⊆
      s.wanted := by
  intro uri member
  rcases List.mem_append.mp member with rest | inserted
  · obtain ⟨other, kept, rfl⟩ := List.mem_map.mp rest
    exact List.mem_append_left _ (List.mem_map_of_mem (List.mem_of_mem_eraseIdx kept))
  · exact List.mem_append_right _ inserted

theorem wanted_endInsert {s : PlaylistRun} {index : Nat} {p : PendingInsert}
    (pending : s.pending[index]? = some p) (w : World) (id : Nat) :
    (PlaylistRun.mk w s.pl (s.pending.eraseIdx index) s.refresh s.given
      ({ id := id, uri := p.uri, metadata := p.metadata } :: s.inserted)).wanted ⊆ s.wanted := by
  intro uri member
  rcases List.mem_append.mp member with rest | inserted
  · exact s.wanted_eraseIdx w index (List.mem_append_left _ rest)
  · rcases List.mem_cons.mp inserted with rfl | before
    · exact List.mem_append_left _ (List.mem_map_of_mem (List.mem_of_getElem? pending))
    · exact List.mem_append_right _ before

theorem kept_endInsert {s t : PlaylistRun} {reply : PlaylistReply} (kept : Kept s)
    {index : Nat} {env : InsertAfterEnv} (taken : s.endInsert index env = some (t, reply)) :
    Kept t := by
  unfold endInsert at taken
  cases pending : s.pending[index]? with
  | none =>
      rw [pending] at taken
      cases taken
  | some p =>
      rw [pending] at taken
      dsimp only at taken
      have fewer := wanted_endInsert pending
        (MpdCli.insertAfterId s.w p.uri p.afterid p.song env).2
      generalize MpdCli.insertAfterId s.w p.uri p.afterid p.song env = result at taken fewer
      obtain ⟨id, w⟩ := result
      have less := fun n => List.Subset.trans (wanted_settle _) (fewer n)
      split at taken
      · cases taken
        exact kept.of_extends (.refl _) rfl (less _) (queued_settle _)
          (fun mpds vdata rebuilding uri member =>
            kept.read mpds vdata rebuilding uri (less _ member))
      · cases taken
        have less := List.Subset.trans (wanted_settle _) (s.wanted_eraseIdx w index)
        exact kept.of_extends (.refl _) rfl less (queued_settle _)
          (fun mpds vdata rebuilding uri member =>
            kept.read mpds vdata rebuilding uri (less member))

theorem kept_startRefresh {s : PlaylistRun} (kept : Kept s) (idle : s.refresh = .idle) :
    Kept (s.startRefresh help) := by
  unfold startRefresh
  dsimp only
  split
  · refine ⟨(s.pl.active_checkTitle help _).trans kept.active, kept.clean,
      fun uri member => ?_, kept.queued, fun mpds vdata rebuilding => ?_⟩
    · obtain ⟨transport, metadata, last, cached⟩ := kept.cached uri member
      exact ⟨transport, metadata, last,
        OHPlaylist.checkTitle_keeps help cached (kept.clean uri metadata last)⟩
    · rw [idle] at rebuilding
      cases rebuilding
  · exact ⟨kept.active, kept.clean, kept.cached, kept.queued,
      fun mpds vdata rebuilding => by cases rebuilding⟩

/-- The queue which is read has all the uris whose metadata must not be lost. -/
theorem kept_readQueue {s : PlaylistRun} (kept : Kept s) (mpds : MpdStatus) {env : ListEnv}
    (safe : env.answered = true → ∀ p ∈ s.pending,
      ∃ song ∈ (s.w.mpd.edited env.edits).queue.songs, mapUri song.uri = p.uri) :
    Kept (s.readQueue mpds env) := by
  unfold readQueue MpdCli.getQueueData MpdCli.getQueueSongs
  by_cases answered : env.answered = true
  · simp only [answered, if_true]
    apply kept_settle kept
    intro mpds' vdata same uri member
    cases same
    rw [MpdCli.uris_mapSongs]
    rcases List.mem_append.mp member with pending | inserted
    · obtain ⟨p, waiting, rfl⟩ := List.mem_map.mp pending
      obtain ⟨song, queued, same⟩ := safe answered p waiting
      exact List.mem_map.mpr ⟨song, queued, same⟩
    · obtain ⟨track, there, rfl⟩ := List.mem_map.mp inserted
      obtain ⟨old, held⟩ := List.mem_filter.mp there
      obtain ⟨song, queued, -, same⟩ := of_decide_eq_true held
      have transport := (kept.cached track.uri
        (List.mem_append_right _ (List.mem_map_of_mem old))).1
      refine List.mem_map.mpr ⟨song, queued, ?_⟩
      rw [same, mapUri_of_looksLikeTransportURI transport]
  · simp only [answered]
    exact kept_settle kept _ _ (fun _ _ same => by cases same)

theorem kept_endRefresh {s : PlaylistRun} (kept : Kept s) {mpds : MpdStatus}
    {vdata : List UpSong} (rebuilding : s.refresh = .rebuilding mpds vdata) :
    Kept (s.endRefresh help mpds vdata) := by
  unfold endRefresh
  refine ⟨(s.pl.active_refreshCache help mpds vdata).trans kept.active, kept.clean,
    fun uri member => ?_, kept.queued, fun _ _ again => by cases again⟩
  obtain ⟨transport, metadata, last, cached⟩ := kept.cached uri member
  exact ⟨transport, metadata, last,
    OHPlaylist.refreshCache_keeps help cached (kept.read mpds vdata rebuilding uri member)⟩

theorem kept_step {s t : PlaylistRun} {action : PlaylistAct} {reply : PlaylistReply}
    (kept : Kept s) (safe : Safe help s action t reply)
    (taken : step help s action = some (t, reply)) : Kept t := by
  cases action with
  | insertStart afterid uri metadata =>
      simp only [step] at taken
      split at taken
      · rename_i idle
        exact kept_startInsert help kept idle safe.1 safe.2 taken
      · cases taken
  | insertEnd index env => exact kept_endInsert kept taken
  | updStatus env =>
      cases taken
      exact kept_world kept _
  | edit queue =>
      cases taken
      exact kept_world kept _
  | refreshStart =>
      simp only [step] at taken
      split at taken
      · rename_i idle
        cases taken
        exact kept_startRefresh help kept idle
      · cases taken
  | refreshRead env =>
      simp only [step] at taken
      split at taken
      · cases taken
        exact kept_readQueue kept _ safe
      · cases taken
      · cases taken
  | refreshEnd =>
      simp only [step] at taken
      split at taken
      · rename_i rebuilding
        cases taken
        exact kept_endRefresh help kept rebuilding
      · cases taken
      · cases taken
  | read id answered =>
      simp only [step] at taken
      split at taken
      · cases taken
        exact kept.of_extends (s.pl.extends_ohread help s.w id answered) rfl
          (List.Subset.refl _) kept.queued kept.read
      · cases taken
  | readList sids failed =>
      simp only [step] at taken
      split at taken
      · cases taken
        exact kept.of_extends (s.pl.extends_readEntries help s.w failed _) rfl
          (List.Subset.refl _) kept.queued kept.read
      · cases taken

theorem readsBack_step {s t : PlaylistRun} {action : PlaylistAct} {reply : PlaylistReply}
    (kept : Kept s) (taken : step help s action = some (t, reply)) :
    ReadsBack s action t reply := by
  intro track inserted
  obtain ⟨transport, metadata, last, cached⟩ :=
    kept.cached track.uri (List.mem_append_right _ (List.mem_map_of_mem inserted))
  have held := kept.queued track inserted
  refine ⟨metadata, last, ?_⟩
  cases action with
  | read id answered =>
      simp only [step] at taken
      split at taken
      · cases taken
        rintro ⟨rfl, rfl⟩
        exact OHPlaylist.ohread_of_holds help kept.active held transport cached
      · cases taken
  | readList sids failed =>
      simp only [step] at taken
      split at taken
      · cases taken
        rintro token asked ⟨answered, same⟩
        exact OHPlaylist.mem_readEntries help kept.active held transport cached asked answered same
      · cases taken
  | insertStart _ _ _ => trivial
  | insertEnd _ _ => trivial
  | updStatus _ => trivial
  | edit _ => trivial
  | refreshStart => trivial
  | refreshRead _ => trivial
  | refreshEnd => trivial

/-- A refresh which nothing interrupts is `makeIdArray`. -/
theorem run_refresh {s : PlaylistRun} (idle : s.refresh = .idle) {env : ListEnv}
    (answered : env.answered = true) (changed : s.w.cli.m_stat.qvers ≠ s.pl.m_mpdqvers) :
    ∃ t replies, Machine.run (step help) s [.refreshStart, .refreshRead env, .refreshEnd] =
        some (t, replies) ∧
      (t.pl, t.w) = (s.pl.makeIdArray help s.w env).2 := by
  simp only [Machine.run, step, idle, if_true, startRefresh, if_neg changed, readQueue,
    MpdCli.getQueueData, MpdCli.getQueueSongs, answered, settle]
  refine ⟨_, _, rfl, ?_⟩
  simp only [endRefresh, OHPlaylist.makeIdArray, if_neg changed, MpdCli.getQueueData,
    MpdCli.getQueueSongs, answered, if_true]

theorem kept_new (w : World) {pl : OHPlaylist} (active : pl.m_active = true) :
    Kept { w := w, pl := pl } := by
  refine ⟨active, fun _ _ found => ?_, fun _ member => ?_, fun _ member => ?_, fun _ _ same => ?_⟩
  · cases found
  · cases member
  · cases member
  · cases same

/-- In every run whose steps meet the condition, a read of an inserted track gives the
metadata its uri was last inserted with. -/
theorem readsBack_inserted (w : World) (pl : OHPlaylist) (active : pl.m_active = true)
    (actions : List PlaylistAct)
    (safe : Machine.Along (Safe help) (step help) { w := w, pl := pl } actions) :
    Machine.Along ReadsBack (step help) { w := w, pl := pl } actions := by
  have preserve (s : PlaylistRun) (a : PlaylistAct) (t : PlaylistRun) (b : PlaylistReply)
      (kept : Kept s) (safe : Safe help s a t b) (taken : step help s a = some (t, b)) :
      Kept t ∧ ReadsBack s a t b :=
    ⟨kept_step help kept safe taken, readsBack_step help kept taken⟩
  exact Machine.along_of_invariant preserve _ actions (kept_new w active) safe

instance (s : PlaylistRun) (t : PlaylistRun) (reply : PlaylistReply) :
    ∀ action, Decidable (Safe help s action t reply)
  | .insertStart .. => inferInstanceAs (Decidable (_ ∧ _))
  | .refreshRead _ => inferInstanceAs (Decidable (_ → _))
  | .insertEnd .. | .updStatus _ | .edit _ | .refreshStart | .refreshEnd | .read .. | .readList .. =>
      .isTrue trivial

/-- The command of an insertion, for which MPD chooses this id. -/
def withId (newid : Nat) : InsertAfterEnv := { insert := { add := { first := { newid := newid } } } }

/-- A refresh between an insertion and the read. -/
theorem readsBack_inserted_one :
    Machine.Along ReadsBack (step .plain) { w := {}, pl := {} }
      [.insertStart 0 "http://h/a" "meta", .insertEnd 0 (withId 1), .refreshStart,
        .refreshRead {}, .refreshEnd, .read 1 true, .readList "1 2" []] :=
  readsBack_inserted .plain {} {} rfl _ (by decide)

/-- A second insertion of the same uri replaces the metadata of the first one. A refresh
which reads the queue between the two parts of an insertion drops its metadata. -/
theorem reads_not_own :
    ¬ Machine.Along ReadsOwn (step .plain) { w := {}, pl := {} }
        [.insertStart 0 "http://h/a" "meta", .insertEnd 0 (withId 1),
          .insertStart 1 "http://h/a" "other", .insertEnd 0 (withId 2), .read 1 true] ∧
      ¬ Machine.Along ReadsOwn (step .plain) { w := {}, pl := {} }
        [.updStatus {}, .insertStart 0 "http://h/a" "meta", .refreshStart, .refreshRead {},
          .refreshEnd, .insertEnd 0 (withId 1), .read 1 true] := by
  constructor
  · decide
  · decide

end PlaylistRun

end Upmpdcli
