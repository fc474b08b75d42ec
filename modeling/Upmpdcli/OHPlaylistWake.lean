import Upmpdcli.OHPlaylistInsert
import Upmpdcli.OHPlaylistSwitch
import Upmpdcli.OHSources

set_option autoImplicit false

/- Actions on a playlist which is not the source: they make it the source first, and their
ids are those of the saved queue. -/
namespace Upmpdcli

/-- In a list without duplicates of `f`, an element is found by its own value. -/
theorem find?_of_nodup {α β : Type} [DecidableEq β] {f : α → β} {entries : List α} {entry : α}
    {place : Nat} (distinct : (entries.map f).Nodup) (there : entries[place]? = some entry) :
    entries.find? (fun other => f other = f entry) = some entry := by
  induction entries generalizing place with
  | nil => cases there
  | cons first rest ih =>
      rw [List.map_cons, List.nodup_cons] at distinct
      cases place with
      | zero =>
          cases there
          exact List.find?_cons_of_pos (by simp)
      | succ place =>
          rw [List.getElem?_cons_succ] at there
          have member := List.mem_of_getElem? there
          have other : f first ≠ f entry := fun same =>
            distinct.1 (same ▸ List.mem_map_of_mem member)
          rw [List.find?_cons_of_neg (by simpa using other)]
          exact ih distinct.2 there

/-- What is shown is a transport uri already. -/
theorem mapUri_mapUri (uri : String) : mapUri (mapUri uri) = mapUri uri := by
  apply mapUri_of_looksLikeTransportURI
  unfold mapUri
  split
  · assumption
  · have start : "http://127.0.0.1/".toList =
        ['h', 't', 't', 'p', ':', '/', '/', '1', '2', '7', '.', '0', '.', '0', '.', '1', '/'] := by
      decide
    unfold looksLikeTransportURI
    simp only [String.toList_append, start]
    simp [List.dropWhile, List.isPrefixOf]

theorem mapUri_ne_empty (uri : String) : mapUri uri ≠ "" := by
  intro empty
  have twice := mapUri_mapUri uri
  rw [empty] at twice
  exact absurd twice (by decide)

namespace OHPlaylist

/-- An entry of the saved queue has the same place in the restored queue, and is found there
when the uris are distinct. -/
theorem idFromOldId_of_restored {pl : OHPlaylist} {w : World} {env : ListEnv} {q : MpdQueue}
    (saved : pl.m_mpdsavedstate.queue = MpdCli.mapSongs {} q.songs)
    (distinct : (pl.m_mpdsavedstate.queue.map (·.rsrc.uri)).Nodup)
    (restored : w.mpd.uris = pl.m_mpdsavedstate.queue.map (·.rsrc.uri)) (smooth : env.Smooth)
    {place oldid newid : Nat} (before : q.ids[place]? = some oldid)
    (after : w.mpd.queue.ids[place]? = some newid) :
    pl.idFromOldId w oldid env = ((newid : Int), w) := by
  rw [MpdQueue.ids, List.getElem?_map, Option.map_eq_some_iff] at before after
  obtain ⟨song, there, rfl⟩ := before
  obtain ⟨again, back, rfl⟩ := after
  obtain ⟨old, kept, oldid, olduri⟩ := MpdCli.getElem?_mapSongs {} there
  obtain ⟨entry, shown, newid, newuri⟩ := MpdCli.getElem?_mapSongs {} back
  have shows : (MpdCli.mapSongs {} q.songs).map (·.rsrc.uri) = q.songs.map (mapUri ·.uri) :=
    MpdCli.uris_mapSongs {} q.songs
  rw [saved, shows] at restored distinct
  have same : entry.rsrc.uri = old.rsrc.uri := by
    have uris := congrArg (·[place]?) restored
    simp only [Mpd.uris, List.getElem?_map, there, back, Option.map_some, Option.some.injEq] at uris
    rw [newuri, uris, mapUri_mapUri, olduri]
  have ids : ((MpdCli.mapSongs {} q.songs).map (·.mpdid)).Nodup := by
    rw [MpdCli.mpdids_mapSongs]
    have ofNat := q.distinct.map (f := Int.ofNat) (fun _ _ other => Int.ofNat.inj other)
    rwa [List.map_map] at ofNat
  have uris : ((MpdCli.mapSongs {} w.mpd.queue.songs).map (·.rsrc.uri)).Nodup := by
    have mapped := congrArg (List.map mapUri) restored
    rw [Mpd.uris, List.map_map, List.map_map] at mapped
    rw [MpdCli.uris_mapSongs]
    have twice : mapUri ∘ (mapUri ·.uri) = fun song : MpdSong => mapUri song.uri :=
      funext fun song => mapUri_mapUri song.uri
    rw [twice] at mapped
    exact mapped ▸ distinct
  have first : pl.m_mpdsavedstate.queue.find? (fun entry => entry.mpdid = (song.id : Int)) =
      some old := by
    rw [saved, ← oldid]
    exact find?_of_nodup ids kept
  have second : (MpdCli.mapSongs {} w.mpd.queue.songs).find?
      (fun other => other.rsrc.uri = old.rsrc.uri) = some entry := by
    rw [← same]
    exact find?_of_nodup uris shown
  unfold idFromOldId
  rw [first]
  dsimp only
  rw [if_neg (by rw [olduri]; exact mapUri_ne_empty _)]
  unfold MpdCli.getQueueData MpdCli.getQueueSongs
  simp only [smooth.1, smooth.2, Mpd.edited, List.foldl_nil, if_true, second, newid]

/-- No entry of the saved queue has the id 0. -/
theorem idFromOldId_zero {pl : OHPlaylist} {q : MpdQueue}
    (saved : pl.m_mpdsavedstate.queue = MpdCli.mapSongs {} q.songs) (w : World) (env : ListEnv) :
    pl.idFromOldId w 0 env = (-1, w) := by
  have none : pl.m_mpdsavedstate.queue.find? (fun entry => entry.mpdid = 0) = none := by
    rw [List.find?_eq_none, saved]
    intro entry member zero
    have id := List.mem_map_of_mem (f := (·.mpdid)) member
    rw [MpdCli.mpdids_mapSongs] at id
    obtain ⟨song, listed, same⟩ := List.mem_map.mp id
    have numbered := q.numbered song listed
    have nothing : entry.mpdid = 0 := by simpa using zero
    omega
  unfold idFromOldId
  rw [none]

end OHPlaylist

/-- There is an MPD behind the pointer which is in use. -/
def Mpds.Present (mpds : Mpds) : Prop := mpds.m_mpdcli = .main ∨ mpds.aux.isSome = true

theorem Mpds.world_setWorld {mpds : Mpds} (present : mpds.Present) (w : World) :
    (mpds.setWorld w).world = w := by
  unfold Present at present
  unfold Mpds.setWorld Mpds.put Mpds.world Mpds.get
  cases which : mpds.m_mpdcli with
  | main => rfl
  | aux =>
      obtain ⟨aux, there⟩ := Option.isSome_iff_exists.mp (present.resolve_left (by simp [which]))
      simp only [there, Option.map_some, Option.getD_some]

theorem Mpds.setWorld_world (mpds : Mpds) : mpds.setWorld mpds.world = mpds := by
  obtain ⟨main, aux, which⟩ := mpds
  cases which with
  | main => rfl
  | aux => cases aux <;> rfl

theorem Mpds.present_setWorld {mpds : Mpds} (present : mpds.Present) (w : World) :
    (mpds.setWorld w).Present := by
  unfold Present setWorld put at *
  cases which : mpds.m_mpdcli with
  | main => exact .inl rfl
  | aux =>
      rw [which] at present
      exact .inr (by rw [Option.isSome_map]; exact present.resolve_left (by simp))

namespace Device

variable {cfg : SourceConfig} (help : SourceHelp) (dev : Device cfg)

/-- The device when the switch to the playlist has left the other source. -/
def left (env : SwitchEnv) : Device cfg := (OHProduct.deactivate help dev env).2

/-- Another source is left, and the queue of the playlist is restored. -/
structure Restores (env : SwitchEnv) : Prop where
  coherent : dev.Coherent
  inactive : dev.ohpl.m_active = false
  stops : (OHProduct.deactivate help dev env).1 = true
  present : (dev.left help env).mpds.Present
  smooth : env.comeBack.restore.Smooth
  restored : (MpdCli.restoreState
    (MpdCli.clearQueue (dev.left help env).world env.comeBack.clear).2
    dev.ohpl.m_mpdsavedstate env.comeBack.restore).1 = true

variable {help dev} {env : SwitchEnv}

theorem service_of_inactive (coherent : dev.Coherent) (inactive : dev.ohpl.m_active = false) :
    dev.source ≠ OHProduct.OHPlaylistSource ∧ dev.source ≠ OHProduct.SndRcvPLSource := by
  have shown := coherent.playlist
  rw [inactive] at shown
  constructor
  · intro same
    rw [same] at shown
    exact absurd shown (by decide)
  · intro same
    rw [same] at shown
    exact absurd shown (by decide)

/-- Leaving another source does not touch the playlist. -/
theorem ohpl_left (help : SourceHelp) (env : SwitchEnv) (coherent : dev.Coherent) (inactive : dev.ohpl.m_active = false) :
    (dev.left help env).ohpl = dev.ohpl := by
  obtain ⟨playlist, sender⟩ := service_of_inactive coherent inactive
  unfold left OHProduct.deactivate
  dsimp only
  rw [if_neg playlist]
  split
  · rfl
  · split
    · rfl
    · rw [if_neg (fun both => sender both.2)]
      split
      · rfl
      · rfl

theorem wakePlaylist_of_restores (restores : dev.Restores help env) :
    ∃ savedsrc, dev.wakePlaylist help env =
      { (dev.left help env).setPlaylistActive help true env with
        m_sourceIndex := ⟨0, Nat.zero_lt_succ _⟩, savedsrc := savedsrc } := by
  obtain ⟨playlist, -⟩ := service_of_inactive restores.coherent restores.inactive
  have index : OHProduct.iSrcNameToIndex cfg OHProduct.OHPlaylistSource.name =
      some ⟨0, Nat.zero_lt_succ _⟩ := by
    unfold OHProduct.iSrcNameToIndex OHProduct.sources
    rfl
  have other : ¬ dev.m_sourceIndex = ⟨0, Nat.zero_lt_succ _⟩ := by
    intro same
    apply playlist
    unfold source
    rw [same]
    rfl
  have stops := restores.stops
  unfold wakePlaylist
  rw [if_neg (by rw [restores.inactive]; decide)]
  unfold OHProduct.iSetSourceIndexByName
  rw [index]
  dsimp only
  unfold OHProduct.setSource left at *
  rw [if_neg other]
  cases done : OHProduct.deactivate help dev env with
  | mk ok device =>
      rw [done] at stops
      cases stops
      exact ⟨_, rfl⟩

/-- The playlist is active with the uris of its saved queue. -/
theorem restored_wakePlaylist (restores : dev.Restores help env) :
    (dev.wakePlaylist help env).ohpl = { dev.ohpl with m_active := true } ∧
      (dev.wakePlaylist help env).world.mpd.uris =
        dev.ohpl.m_mpdsavedstate.queue.map (·.rsrc.uri) := by
  obtain ⟨savedsrc, woken⟩ := wakePlaylist_of_restores restores
  have same := ohpl_left help env restores.coherent restores.inactive
  have uris := (MpdCli.restoreState_smooth restores.smooth _ _ restores.restored).1
  rw [woken]
  unfold setPlaylistActive OHPlaylist.comeBack world
  simp only [if_true, same]
  exact ⟨trivial, by rw [Mpds.world_setWorld restores.present]; exact uris⟩

/-- The actions on an entry of the saved queue. -/
inductive SavedCall
  | insert (uri metadata : String)
  | deleteId
  | seekId

def SavedCall.call (id : Int) : SavedCall → PlaylistCall
  | .insert uri metadata => .insert (some (id, uri, metadata))
  | .deleteId => .deleteId (some id)
  | .seekId => .seekId (some id)

/-- An insertion is refused at once when its uri is bad. -/
def SavedCall.Valid (help : SourceHelp) : SavedCall → Prop
  | .insert uri _ => (help.toPlaylistHelp.morphSpecialUrl uri).isSome = true
  | .deleteId | .seekId => True

section Woken

variable {env : PlaylistCallEnv} {q : MpdQueue}

theorem active_wakePlaylist (restores : dev.Restores help env.switch) :
    (dev.wakePlaylist help env.switch).ohpl.m_active = true := by
  rw [(restored_wakePlaylist restores).1]

theorem wakeWithId_of_active (help : SourceHelp) (env : PlaylistCallEnv) (active : dev.ohpl.m_active = true) (id : Int) :
    dev.wakeWithId help id env = (some id, dev) := by
  unfold wakeWithId
  rw [if_pos active]

/-- The old id is translated to the new one. -/
theorem wakeWithId_of_restores (restores : dev.Restores help env.switch)
    (saved : dev.ohpl.m_mpdsavedstate.queue = MpdCli.mapSongs {} q.songs)
    (distinct : (dev.ohpl.m_mpdsavedstate.queue.map (·.rsrc.uri)).Nodup)
    (smooth : env.queue.Smooth) {place oldid newid : Nat} (before : q.ids[place]? = some oldid)
    (after : (dev.wakePlaylist help env.switch).world.mpd.queue.ids[place]? = some newid) :
    dev.wakeWithId help oldid env = (some (newid : Int), dev.wakePlaylist help env.switch) := by
  obtain ⟨ohpl, uris⟩ := restored_wakePlaylist restores
  have found := OHPlaylist.idFromOldId_of_restored
    (show (dev.wakePlaylist help env.switch).ohpl.m_mpdsavedstate.queue = _ by
      rw [ohpl]; exact saved) (by rw [ohpl]; exact distinct) (by rw [ohpl]; exact uris) smooth
    before after
  unfold wakeWithId
  rw [if_neg (by rw [restores.inactive]; decide)]
  dsimp only
  rw [found]
  dsimp only
  rw [if_neg (by omega)]
  unfold setWorld world
  rw [Mpds.setWorld_world]

theorem wakeWithId_zero (restores : dev.Restores help env.switch)
    (saved : dev.ohpl.m_mpdsavedstate.queue = MpdCli.mapSongs {} q.songs) :
    dev.wakeWithId help 0 env = (none, dev.wakePlaylist help env.switch) := by
  have missing := OHPlaylist.idFromOldId_zero
    (show (dev.wakePlaylist help env.switch).ohpl.m_mpdsavedstate.queue = _ by
      rw [(restored_wakePlaylist restores).1]; exact saved)
    (dev.wakePlaylist help env.switch).world env.queue
  unfold wakeWithId
  rw [if_neg (by rw [restores.inactive]; decide)]
  dsimp only
  rw [missing]
  dsimp only
  rw [if_pos (by decide)]
  unfold setWorld world
  rw [Mpds.setWorld_world]

/-- An action on a saved entry does what it does to the restored entry in the same place. -/
theorem callPlaylist_of_restores (restores : dev.Restores help env.switch)
    (saved : dev.ohpl.m_mpdsavedstate.queue = MpdCli.mapSongs {} q.songs)
    (distinct : (dev.ohpl.m_mpdsavedstate.queue.map (·.rsrc.uri)).Nodup)
    (smooth : env.queue.Smooth) (call : SavedCall) (valid : call.Valid help)
    {place oldid newid : Nat} (before : q.ids[place]? = some oldid)
    (after : (dev.wakePlaylist help env.switch).world.mpd.queue.ids[place]? = some newid) :
    dev.callPlaylist help env (call.call oldid) =
      (dev.wakePlaylist help env.switch).callPlaylist help env (call.call newid) := by
  have old := wakeWithId_of_restores restores saved distinct smooth before after
  have new := wakeWithId_of_active help env (active_wakePlaylist restores)
    (newid : Int)
  cases call with
  | insert uri metadata =>
      simp only [SavedCall.call, callPlaylist, insert]
      cases morphed : help.toPlaylistHelp.morphSpecialUrl uri with
      | none =>
          simp only [SavedCall.Valid, morphed] at valid
          cases valid
      | some sent => simp only [old, new]
  | deleteId => simp only [SavedCall.call, callPlaylist, deleteId, old, new]
  | seekId => simp only [SavedCall.call, callPlaylist, seekId, old, new]

/-- Inserting at the start of a playlist which is active. -/
theorem insert_start_iff {device : Device cfg} (active : device.ohpl.m_active = true)
    (present : device.mpds.Present) (alone : env.insert.Alone) {uri : String}
    (valid : (help.toPlaylistHelp.morphSpecialUrl uri).isSome = true) (metadata : String) :
    (device.insert help (some (0, uri, metadata)) env).2.world.mpd.queue =
        device.world.mpd.queue ↔
      ¬ ((OHPlaylist.sentToMpd help.toPlaylistHelp uri metadata).isSome = true ∧
        env.insert.insert.add.Takes device.world.mpd.queue.Fresh) := by
  obtain ⟨⟨sent, nocheck⟩, morphed⟩ := Option.isSome_iff_exists.mp valid
  have woken := wakeWithId_of_active help env active 0
  unfold insert OHPlaylist.sentToMpd
  simp only [morphed, woken, insertUri, active, if_true, OHPlaylist.insertUri,
    OHPlaylist.startInsert]
  cases checked : help.toPlaylistHelp.checkContentFormat sent metadata nocheck with
  | none =>
      simp only [Option.map_none, Option.isSome_none, Bool.false_eq_true, false_and,
        not_false_eq_true, iff_true]
      unfold setWorld world
      rw [Mpds.world_setWorld present]
  | some song =>
      have put := MpdCli.insert_of_takes alone.insert device.world sent song (Nat.zero_le _)
      have refused := MpdCli.insert_of_not_takes alone.insert device.world sent song 0
      simp only [Option.map_some, Option.isSome_some, true_and, MpdCli.insertAfterId, if_true]
      unfold setWorld world at *
      rw [Mpds.world_setWorld present]
      constructor
      · exact fun same takes => put takes same
      · exact fun not => (refused fun both => not both.2).2

end Woken

/-- The action adds a song to this queue when it is not refused. -/
def SavedCall.Adds (help : SourceHelp) (env : PlaylistCallEnv) (q : MpdQueue) : SavedCall → Prop
  | .insert uri metadata =>
      (OHPlaylist.sentToMpd help.toPlaylistHelp uri metadata).isSome = true ∧
        env.insert.insert.add.Takes q.Fresh
  | .deleteId | .seekId => False

/-- The ids are those of the saved and of the restored entry in one place, or 0 for an
insertion at the start. -/
def SameEntry (saved restored : MpdQueue) (call : SavedCall) (oldid newid : Int) : Prop :=
  (∃ place, OHPlaylist.IdAt saved oldid place ∧ OHPlaylist.IdAt restored newid place) ∨
    oldid = 0 ∧ newid = 0 ∧ ∃ uri metadata, call = .insert uri metadata

/-- The action while another source is active leaves the queue which activating the playlist
and acting on the restored entry leaves. -/
def SameEffect (help : SourceHelp) (dev : Device cfg) (env : PlaylistCallEnv) (call : SavedCall)
    (oldid newid : Int) : Prop :=
  (dev.callPlaylist help env (call.call oldid)).2.world.mpd.queue =
    ((dev.wakePlaylist help env.switch).callPlaylist help env (call.call newid)).2.world.mpd.queue

/-- Acting on a playlist which is not the source has the right effect, unless a song is to be
inserted at the start and is not refused. -/
theorem sameEffect_iff {env : PlaylistCallEnv} {q : MpdQueue}
    (restores : dev.Restores help env.switch)
    (saved : dev.ohpl.m_mpdsavedstate.queue = MpdCli.mapSongs {} q.songs)
    (distinct : (dev.ohpl.m_mpdsavedstate.queue.map (·.rsrc.uri)).Nodup)
    (smooth : env.queue.Smooth) {call : SavedCall} (valid : call.Valid help) {oldid newid : Int}
    (entry : SameEntry q (dev.wakePlaylist help env.switch).world.mpd.queue call oldid newid)
    (alone : oldid = 0 → env.insert.Alone) :
    SameEffect help dev env call oldid newid ↔
      (oldid = 0 →
        ¬ call.Adds help env (dev.wakePlaylist help env.switch).world.mpd.queue) := by
  unfold SameEffect
  rcases entry with ⟨place, before, after⟩ | ⟨rfl, rfl, uri, metadata, rfl⟩
  · have nonzero := OHPlaylist.ne_zero_of_listed ⟨place, before⟩
    obtain ⟨old, kept, rfl⟩ := OHPlaylist.idAt_iff.mp before
    obtain ⟨new, back, rfl⟩ := OHPlaylist.idAt_iff.mp after
    rw [callPlaylist_of_restores restores saved distinct smooth call valid kept back]
    exact ⟨fun _ zero => absurd zero nonzero, fun _ => rfl⟩
  · have woken := active_wakePlaylist restores
    have present : (dev.wakePlaylist help env.switch).mpds.Present := by
      obtain ⟨_, same⟩ := wakePlaylist_of_restores restores
      rw [same]
      exact Mpds.present_setWorld restores.present _
    have start := insert_start_iff woken present (alone rfl) valid metadata
    have failed : (dev.callPlaylist help env ((SavedCall.insert uri metadata).call 0)).2 =
        dev.wakePlaylist help env.switch := by
      obtain ⟨⟨sent, nocheck⟩, morphed⟩ := Option.isSome_iff_exists.mp valid
      simp only [SavedCall.call, callPlaylist, insert, morphed,
        wakeWithId_zero restores saved]
    rw [failed, eq_comm]
    simp only [SavedCall.call, callPlaylist, SavedCall.Adds, forall_const]
    exact start

/-- A device which plays the radio, with two songs in the saved queue. -/
def queueTwo : MpdQueue :=
  ⟨[{ id := 1, uri := "http://h/a" }, { id := 2, uri := "http://h/b" }], by decide, by decide⟩

def radioDevice : Device {} where
  ohpl := { m_active := false, m_mpdsavedstate := { queue := MpdCli.mapSongs {} queueTwo.songs } }
  ohrd := { m_active := true }
  m_radioplaying := true
  m_sourceIndex := ⟨1, by decide⟩

/-- MPD gives the restored songs the ids 8 and 9, and a new one the id 10. -/
def restoring : PlaylistCallEnv where
  switch := { comeBack := OHPlaylist.succeeding [8, 9] }
  insert := { insert := { add := { first := { newid := 10 } } } }

theorem restores_radioDevice : radioDevice.Restores ⟨.plain, id⟩ restoring.switch :=
  ⟨⟨by decide, by decide, by decide, by decide⟩, rfl, by decide, .inl (by decide),
    OHPlaylist.smooth_succeeding _, by decide⟩

/-- The second entry of the saved queue has the id 2, and then the id 9. -/
theorem sameEffect_second :
    SameEffect ⟨.plain, id⟩ radioDevice restoring (.insert "http://h/c" "") 2 9 :=
  (sameEffect_iff restores_radioDevice rfl (by decide) (by decide)
    (show SavedCall.Valid ⟨.plain, id⟩ (.insert "http://h/c" "") from rfl)
    (.inl ⟨1, by decide, by decide⟩) (fun zero => absurd zero (by decide))).mpr
    (fun zero => absurd zero (by decide))

/-- A song which is to be inserted at the start is refused. -/
theorem sameEffect_not_at_start :
    ¬ ∀ (help : SourceHelp) (dev : Device {}) (env : PlaylistCallEnv) (q : MpdQueue)
      (call : SavedCall) (oldid newid : Int), dev.Restores help env.switch →
      dev.ohpl.m_mpdsavedstate.queue = MpdCli.mapSongs {} q.songs →
      (dev.ohpl.m_mpdsavedstate.queue.map (·.rsrc.uri)).Nodup → env.queue.Smooth →
      call.Valid help →
      SameEntry q (dev.wakePlaylist help env.switch).world.mpd.queue call oldid newid →
      env.insert.Alone → SameEffect help dev env call oldid newid := by
  intro always
  have wrong := always ⟨.plain, id⟩ radioDevice restoring queueTwo (.insert "http://h/c" "") 0 0
    restores_radioDevice rfl (by decide) (by decide)
    (show SavedCall.Valid ⟨.plain, id⟩ (.insert "http://h/c" "") from rfl)
    (.inr ⟨rfl, rfl, _, _, rfl⟩)
    ⟨⟨rfl, rfl⟩, rfl, ⟨⟨rfl, rfl⟩, by simp [restoring], ⟨rfl, rfl⟩⟩⟩
  revert wrong
  unfold SameEffect
  decide

end Device

end Upmpdcli
