import Upmpdcli.OHPlaylist

set_option autoImplicit false

/- The metadata cache when the queue has another version. -/
namespace Upmpdcli

namespace OHPlaylist

variable (help : PlaylistHelp)

theorem lookup_take (c : CacheWalk) (usong : UpSong) (uri : String) :
    (c.take help usong).m_metacache.lookup uri =
        (if uri = usong.rsrc.uri then none else c.m_metacache.lookup uri) ∧
      (c.take help usong).nmeta.lookup uri =
        if uri = usong.rsrc.uri then
          some ((c.m_metacache.lookup uri).getD
            ((c.nmeta.lookup uri).getD (UpSong.didlmake help.soap usong)))
        else c.nmeta.lookup uri := by
  unfold CacheWalk.take
  dsimp only
  split
  · rename_i found cached
    refine ⟨VarMap.lookup_erase _ _ _, ?_⟩
    rw [VarMap.lookup_set]
    split
    · rename_i here
      rw [here, cached, Option.getD_some]
    · rfl
  · rename_i missing
    have absent : c.m_metacache.lookup uri =
        if uri = usong.rsrc.uri then none else c.m_metacache.lookup uri := by
      split
      · rename_i here
        rw [here, missing]
      · rfl
    split
    · rename_i found taken
      refine ⟨absent, ?_⟩
      split
      · rename_i here
        rw [here, missing, taken, Option.getD_none, Option.getD_some]
      · rfl
    · rename_i untaken
      refine ⟨absent, ?_⟩
      rw [VarMap.lookup_set]
      split
      · rename_i here
        rw [here, missing, untaken, Option.getD_none, Option.getD_none]
      · rfl

/-- What is left of the old cache. -/
theorem lookup_rest (vdata : List UpSong) (c : CacheWalk) (uri : String) :
    (walkQueue help vdata c).m_metacache.lookup uri =
      if uri ∈ vdata.map (·.rsrc.uri) then none else c.m_metacache.lookup uri := by
  induction vdata generalizing c with
  | nil => rfl
  | cons usong rest ih =>
      unfold walkQueue
      rw [ih, (lookup_take help c usong uri).1, List.map_cons]
      by_cases here : uri = usong.rsrc.uri
      · simp [here]
      · simp [here]

/-- The new cache has the old metadata of the songs of the queue, or else data from MPD of the
first song with the uri. -/
theorem lookup_walkQueue (vdata : List UpSong) (c : CacheWalk) (uri : String) :
    (walkQueue help vdata c).nmeta.lookup uri =
      ((vdata.find? fun usong => usong.rsrc.uri = uri).map fun usong =>
        (c.m_metacache.lookup uri).getD
          ((c.nmeta.lookup uri).getD (UpSong.didlmake help.soap usong))).or
      (c.nmeta.lookup uri) := by
  induction vdata generalizing c with
  | nil => rfl
  | cons usong rest ih =>
      obtain ⟨old, nmeta⟩ := lookup_take help c usong uri
      unfold walkQueue
      rw [ih]
      by_cases here : uri = usong.rsrc.uri
      · rw [if_pos here] at old nmeta
        have first : (usong :: rest).find? (fun usong => usong.rsrc.uri = uri) = some usong :=
          List.find?_cons_of_pos (decide_eq_true here.symm)
        rw [old, nmeta, first]
        cases rest.find? fun usong => usong.rsrc.uri = uri with
        | none => rw [Option.map_none, Option.none_or, Option.map_some, Option.some_or]
        | some other =>
            rw [Option.map_some, Option.some_or, Option.getD_none, Option.getD_some,
              Option.map_some, Option.some_or]
      · rw [if_neg here] at old nmeta
        have later : (usong :: rest).find? (fun usong => usong.rsrc.uri = uri) =
            rest.find? fun usong => usong.rsrc.uri = uri :=
          List.find?_cons_of_neg (by simpa using fun same => here same.symm)
        rw [old, nmeta, later]

theorem dirty_take {c : CacheWalk} {usong : UpSong} (clean : (c.take help usong).m_cachedirty = false) :
    c.m_cachedirty = false ∧
      (c.m_metacache.lookup usong.rsrc.uri ≠ none ∨ c.nmeta.lookup usong.rsrc.uri ≠ none) := by
  unfold CacheWalk.take at clean
  dsimp only at clean
  split at clean
  · rename_i found cached
    exact ⟨clean, .inl (by rw [cached]; exact Option.some_ne_none _)⟩
  · split at clean
    · rename_i found taken
      exact ⟨clean, .inr (by rw [taken]; exact Option.some_ne_none _)⟩
    · cases clean

/-- A clean walk has found every uri of the queue in one of the caches. -/
theorem clean_walkQueue {vdata : List UpSong} {c : CacheWalk}
    (clean : (walkQueue help vdata c).m_cachedirty = false) :
    c.m_cachedirty = false ∧ ∀ uri ∈ vdata.map (·.rsrc.uri),
      c.m_metacache.lookup uri ≠ none ∨ c.nmeta.lookup uri ≠ none := by
  induction vdata generalizing c with
  | nil => exact ⟨clean, fun uri absurd => by cases absurd⟩
  | cons usong rest ih =>
      obtain ⟨before, later⟩ := ih clean
      obtain ⟨start, found⟩ := dirty_take help before
      refine ⟨start, fun uri member => ?_⟩
      obtain ⟨old, nmeta⟩ := lookup_take help c usong uri
      by_cases here : uri = usong.rsrc.uri
      · exact here ▸ found
      · have listed : uri ∈ rest.map (·.rsrc.uri) := by
          rw [List.map_cons, List.mem_cons] at member
          exact member.resolve_left here
        have known := later uri listed
        rwa [old, nmeta, if_neg here, if_neg here] at known

/-- The cache after a refresh, for a uri of the queue and for any other. -/
theorem lookup_refreshMetacache (pl : OHPlaylist) (vdata : List UpSong) (uri : String) :
    (pl.refreshMetacache help vdata).m_metacache.lookup uri =
      (vdata.find? fun usong => usong.rsrc.uri = uri).map fun usong =>
        (pl.m_metacache.lookup uri).getD (UpSong.didlmake help.soap usong) := by
  refine (lookup_walkQueue help vdata
    { m_metacache := pl.m_metacache, m_cachedirty := pl.m_cachedirty } uri).trans ?_
  exact Option.or_none

/-- A cache which is not saved is the same as before. -/
theorem refreshMetacache_saves (pl : OHPlaylist) (vdata : List UpSong)
    (persist : help.ohMetaPersist = true)
    (differs : ¬ VarMap.Same (pl.refreshMetacache help vdata).m_metacache pl.m_metacache) :
    (pl.refreshMetacache help vdata).saves =
      (pl.refreshMetacache help vdata).m_metacache :: pl.saves := by
  by_contra unsaved
  apply differs
  have skipped : ¬ ((walkQueue help vdata
        { m_metacache := pl.m_metacache, m_cachedirty := pl.m_cachedirty }).m_metacache ≠ [] ∨
      (walkQueue help vdata
        { m_metacache := pl.m_metacache, m_cachedirty := pl.m_cachedirty }).m_cachedirty = true) := by
    intro save
    apply unsaved
    simp only [refreshMetacache, persist, Bool.true_and]
    rw [if_pos (by simpa using save)]
  rw [not_or, not_not, Bool.not_eq_true] at skipped
  obtain ⟨-, found⟩ := clean_walkQueue help skipped.2
  intro uri
  rw [lookup_refreshMetacache]
  have rest := lookup_rest help vdata
    { m_metacache := pl.m_metacache, m_cachedirty := pl.m_cachedirty } uri
  rw [skipped.1] at rest
  cases first : vdata.find? fun usong => usong.rsrc.uri = uri with
  | none =>
      have absent : uri ∉ vdata.map (·.rsrc.uri) := by
        intro member
        obtain ⟨usong, listed, same⟩ := List.mem_map.mp member
        have other := List.find?_eq_none.mp first usong listed
        exact other (by simpa using same)
      rw [if_neg absent] at rest
      exact rest
  | some usong =>
      have member : uri ∈ vdata.map (·.rsrc.uri) := by
        have same := List.find?_some first
        exact List.mem_map.mpr ⟨usong, List.mem_of_find?_eq_some first, by simpa using same⟩
      have known := found uri member
      obtain ⟨metadata, cached⟩ := Option.ne_none_iff_exists'.mp (known.resolve_right (by simp))
      rw [cached]
      rfl

/-- The cache of `pl'` is that of `pl`, brought in line with the queue. -/
structure Refreshed (pl : OHPlaylist) (q : MpdQueue) (pl' : OHPlaylist) : Prop where
  keys : ∀ uri, pl'.m_metacache.lookup uri ≠ none ↔ ∃ song ∈ q.songs, mapUri song.uri = uri
  kept : ∀ uri metadata, (∃ song ∈ q.songs, mapUri song.uri = uri) →
    pl.m_metacache.lookup uri = some metadata → pl'.m_metacache.lookup uri = some metadata
  added : ∀ uri song, pl.m_metacache.lookup uri = none →
    (q.songs.find? fun song => mapUri song.uri = uri) = some song →
      pl'.m_metacache.lookup uri = some (UpSong.didlmake help.soap (mapSong {} song))
  saved : help.ohMetaPersist = true → ¬ VarMap.Same pl'.m_metacache pl.m_metacache →
    pl'.saves = pl'.m_metacache :: pl.saves

theorem mapSongs_eq_map (usong : UpSong) (songs : List MpdSong) :
    MpdCli.mapSongs usong songs = songs.map (mapSong usong) := by
  induction songs generalizing usong with
  | nil => rfl
  | cons song rest ih =>
      unfold MpdCli.mapSongs
      dsimp only
      rw [ih, List.map_cons]
      rfl

theorem refreshed_refreshMetacache (pl : OHPlaylist) (q : MpdQueue) :
    Refreshed help pl q (pl.refreshMetacache help (MpdCli.mapSongs {} q.songs)) := by
  have lookup (uri : String) :
      (pl.refreshMetacache help (MpdCli.mapSongs {} q.songs)).m_metacache.lookup uri =
        (q.songs.find? fun song => mapUri song.uri = uri).map fun song =>
          (pl.m_metacache.lookup uri).getD (UpSong.didlmake help.soap (mapSong {} song)) := by
    rw [lookup_refreshMetacache, mapSongs_eq_map, List.find?_map, Option.map_map]
    rfl
  have queued (uri : String) : (q.songs.find? fun song => mapUri song.uri = uri) ≠ none ↔
      ∃ song ∈ q.songs, mapUri song.uri = uri := by
    rw [Option.ne_none_iff_isSome, List.find?_isSome]
    simp
  refine ⟨fun uri => ?_, fun uri metadata listed cached => ?_, fun uri song fresh first => ?_,
    fun persist differs => ?_⟩
  · rw [lookup, ← queued, ne_eq, ne_eq, Option.map_eq_none_iff]
  · obtain ⟨song, first⟩ := Option.ne_none_iff_exists'.mp ((queued uri).mpr listed)
    rw [lookup, first, cached]
    rfl
  · rw [lookup, first, fresh]
    rfl
  · exact refreshMetacache_saves help pl _ persist differs

/-- What `makeIdArray` does to the cache of an active playlist when the queue has another
version and can be read. -/
theorem makeIdArray_refreshes {pl : OHPlaylist} {w : World} {env : ListEnv}
    (active : pl.m_active = true) (changed : w.cli.m_stat.qvers ≠ pl.m_mpdqvers)
    (answered : env.answered = true) :
    Refreshed help pl (w.mpd.edited env.edits).queue (pl.makeIdArray help w env).2.1 := by
  unfold makeIdArray
  dsimp only
  rw [if_neg changed]
  unfold MpdCli.getQueueData MpdCli.getQueueSongs
  simp only [answered, if_true]
  generalize (w.mpd.edited env.edits).queue = q
  have start (pl' : OHPlaylist) (cache : pl'.m_metacache = pl.m_metacache)
      (saves : pl'.saves = pl.saves) :
      Refreshed help pl q (pl'.refreshMetacache help (MpdCli.mapSongs {} q.songs)) := by
    have refreshed := refreshed_refreshMetacache help pl' q
    obtain ⟨keys, kept, added, saved⟩ := refreshed
    rw [cache] at kept added saved
    rw [saves] at saved
    exact ⟨keys, kept, added, saved⟩
  unfold refreshCache
  generalize MpdCli.mapSongs {} q.songs = vdata at start
  cases vdata with
  | nil =>
      dsimp only
      rw [if_pos active]
      exact start _ rfl rfl
  | cons first rest =>
      dsimp only
      rw [if_pos active]
      exact start _ rfl rfl

/-- One uri twice in the queue, and a stale entry in the old cache. -/
theorem makeIdArray_refreshes_twice :
    let help : PlaylistHelp := { PlaylistHelp.plain with ohMetaPersist := true }
    let pl : OHPlaylist := { m_metacache := [("http://h/z", "old")] }
    let twice : MpdQueue :=
      ⟨[{ id := 1, uri := "http://h/a" }, { id := 2, uri := "http://h/a" }], by decide, by decide⟩
    let w : World := { cli := { m_stat := { qvers := 7 } }, mpd := { queue := twice } }
    Refreshed help pl twice (pl.makeIdArray help w {}).2.1 := by
  intro help pl twice w
  have answered : ({} : ListEnv).answered = true := rfl
  exact makeIdArray_refreshes help (show pl.m_active = true from rfl)
    (show w.cli.m_stat.qvers ≠ pl.m_mpdqvers by decide) answered

end OHPlaylist

end Upmpdcli
