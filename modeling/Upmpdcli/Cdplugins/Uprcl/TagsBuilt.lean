import Upmpdcli.Cdplugins.Uprcl.TagsBrowse
import Upmpdcli.Cdplugins.Uprcl.TagsJunctions

set_option autoImplicit false

/- The tree of the tags which a build of the tables makes. -/
namespace Upmpdcli.Uprcl

section Tracks

variable {env : Env} {tags : Tags} {db db' : Db}

/-- The rows of the tracks are in the order of the documents. -/
theorem addDocs_docidxs {docs : List Doc} {docidx : Nat}
    (added : addDocs env tags docs docidx db = some db')
    (distinct : ((db.tracks.getD []).map Track.docidx).Nodup)
    (before : ∀ row ∈ db.tracks.getD [], row.docidx < docidx) :
    ((db'.tracks.getD []).map Track.docidx).Nodup := by
  induction docs generalizing docidx db with
  | nil =>
      cases added
      exact distinct
  | cons doc rest ih =>
      obtain ⟨between, first, later⟩ := Option.bind_eq_some_iff.mp added
      rcases addDoc_tracks first with kept | ⟨-, -, tracks, row, had, has, place⟩
      · rw [← kept] at distinct before
        exact ih later distinct fun row member => Nat.lt_succ_of_lt (before row member)
      · rw [had, Option.getD_some] at distinct before
        refine ih later ?_ ?_
        · rw [has, Option.getD_some, List.map_append, List.map_singleton, ← List.concat_eq_append]
          refine distinct.concat fun inside => ?_
          obtain ⟨old, member, same⟩ := List.mem_map.mp inside
          have old_place := before old member
          omega
        · rw [has, Option.getD_some]
          intro other member
          rcases List.mem_append.mp member with old | new
          · exact Nat.lt_succ_of_lt (before other old)
          · rw [List.mem_singleton.mp new, place]
            exact Nat.lt_succ_self docidx

/-- The ids of the albums. -/
def albumIds (db : Db) : List Nat := (db.albums.getD []).map Album.album_id

theorem albumIds_of_eq (same : db'.albums = db.albums) : albumIds db' = albumIds db := by
  rw [albumIds, albumIds, same]

/-- What does not depend on the artists of the albums stays when a tag is inserted. -/
theorem insertTag_map_albums {α : Type} {shape : Album → α}
    (kept : ∀ row artists, shape { row with artists } = shape row) {docidx album_id : Nat}
    {doc : Doc} {tag : Str × Str}
    (inserted : insertTag docidx album_id doc db tag = some db') :
    (db'.albums.getD []).map shape = (db.albums.getD []).map shape := by
  simp only [insertTag, bind, Option.bind_eq_some_iff] at inserted
  obtain ⟨⟨between, rowids⟩, values, last⟩ := inserted
  have unchanged := (insertValues_albums values).1
  dsimp only at last unchanged
  split at last
  · cases last
    rw [← unchanged]
    unfold updatealbartistlist
    cases between.albums with
    | none => rfl
    | some albums =>
        dsimp only [Option.map_some, Option.getD_some]
        rw [List.map_map]
        apply List.map_congr_left
        intro row _
        rw [Function.comp_apply]
        split
        · exact kept row _
        · rfl
  · cases last
    rw [unchanged]

theorem insertTag_albumIds {docidx album_id : Nat} {doc : Doc} {tag : Str × Str}
    (inserted : insertTag docidx album_id doc db tag = some db') : albumIds db' = albumIds db :=
  insertTag_map_albums (fun _ _ => rfl) inserted

theorem maybecreatealbum_albumIds {doc : Doc} {album_id : Nat}
    (created : maybecreatealbum env db doc = some (db', album_id)) :
    albumIds db ⊆ albumIds db' ∧ album_id ∈ albumIds db' := by
  simp only [maybecreatealbum, bind, Option.bind_eq_some_iff] at created
  obtain ⟨key, -, ⟨between, artist_id⟩, artist, last⟩ := created
  have kept := albumIds_of_eq (albumArtist_albums artist).1
  simp only [Option.ite_none_left_eq_some, Option.bind_eq_some_iff] at last
  obtain ⟨-, albums, has_albums, last⟩ := last
  have ids : albumIds between = albums.map Album.album_id := by
    rw [albumIds, has_albums, Option.getD_some]
  rw [← kept]
  split at last
  · rename_i row found
    cases last
    exact ⟨List.Subset.refl _, ids ▸ List.mem_map_of_mem (List.mem_of_find?_eq_some found)⟩
  · cases last
    rw [ids, albumIds, Option.getD_some, List.map_append]
    exact ⟨List.subset_append_left _ _,
      List.mem_append_right _ (List.mem_singleton.mpr rfl)⟩

/-- The album of each track is there. -/
def AlbumsThere (db : Db) : Prop := ∀ row ∈ db.tracks.getD [], row.album_id ∈ albumIds db

theorem AlbumsThere.addDoc (there : AlbumsThere db) {doc : Doc} {docidx : Nat}
    (added : addDoc env tags db doc docidx = some db') : AlbumsThere db' := by
  unfold Uprcl.addDoc at added
  split at added
  · simp only [bind, Option.bind_eq_some_iff] at added
    obtain ⟨⟨made, album_id⟩, created, tagged, inserted, last⟩ := added
    simp only [Option.ite_none_left_eq_some, Option.bind_eq_some_iff] at last
    obtain ⟨-, tracks, has_tracks, same⟩ := last
    cases same
    obtain ⟨more, own⟩ := maybecreatealbum_albumIds created
    have ids : albumIds tagged = albumIds made :=
      Fold.foldlM_keeps (I := fun db => albumIds db = albumIds made)
        (fun _ _ _ before turn => (insertTag_albumIds turn).trans before) rfl inserted
    have unchanged : tagged.tracks = made.tracks :=
      Fold.foldlM_keeps (I := fun db => db.tracks = made.tracks)
        (fun _ _ _ before turn => (insertTag_tracks turn).trans before) rfl inserted
    have kept := (maybecreatealbum_tracks created).1
    intro row member
    show row.album_id ∈ albumIds tagged
    rw [ids]
    rcases List.mem_append.mp member with old | new
    · refine more (there row ?_)
      rw [← kept, ← unchanged, has_tracks]
      exact old
    · rw [List.mem_singleton.mp new]
      exact own
  · cases added
    exact there

theorem AlbumsThere.addDocs {docs : List Doc} {docidx : Nat} (there : AlbumsThere db)
    (added : addDocs env tags docs docidx db = some db') : AlbumsThere db' := by
  induction docs generalizing docidx db with
  | nil =>
      cases added
      exact there
  | cons doc rest ih =>
      obtain ⟨between, first, later⟩ := Option.bind_eq_some_iff.mp added
      exact ih (there.addDoc first) later

end Tracks

section Albums

variable {env : Env} {albums : List Album}

theorem setalbumcovers_map {α : Type} {shape : Album → α}
    (kept : ∀ row albarturi, shape { row with albarturi } = shape row) {rcldocs : List Doc}
    {tracks : List Track} {covered : List Album}
    (covers : setalbumcovers env rcldocs tracks albums = some covered) :
    covered.map shape = albums.map shape := by
  refine MapM.map_of_eq_some covers fun row _ row' made => ?_
  simp only [bind, Option.bind_eq_some_iff] at made
  obtain ⟨cover, -, same⟩ := made
  cases same
  split
  · rfl
  · exact kept row _

theorem setalbumartists_map {α : Type} {shape : Album → α}
    (kept : ∀ row artist_id, shape { row with artist_id } = shape row) (various : Nat)
    (albums : List Album) : (setalbumartists env various albums).map shape = albums.map shape := by
  unfold setalbumartists
  rw [List.map_map]
  apply List.map_congr_left
  intro row _
  rw [Function.comp_apply]
  split
  · rfl
  · exact kept row _
  · exact kept row _

section Merged

variable {P : Album → Prop} (unset : ∀ row, P row → P { row with albtdisc := none })
  (points : ∀ row id, P row → P { row with albalb := some id })
  (tops : ∀ albums member, candidate member = true → P member →
    P (membertotopalbum albums member))

include unset points tops

/-- What holds of all rows holds of them after one turn. -/
theorem mergeRow_all {s : MergeState} (all : ∀ row ∈ s.albums, P row) (r : Album) :
    ∀ row ∈ (mergeRow s r).albums, P row := by
  have without (albids : List Nat) : ∀ row ∈ unsetDiscs albids s.albums, P row := by
    intro row member
    obtain ⟨old, inside, rfl⟩ := List.mem_map.mp member
    split
    · exact unset old (all old inside)
    · exact all old inside
  unfold mergeRow
  split
  · exact all
  · split
    · exact all
    · exact without _
    · rename_i first second rest found
      dsimp only
      split
      · have member : first ∈ s.albums ∧ candidate first = true := by
          have there : first ∈ mergealbumsfilterfolders r.albfolder
              (sameTitleAndArtist s.albums r) := found ▸ List.mem_cons_self
          have of_title := List.mem_filter.mp (List.mem_of_mem_filter there)
          rw [decide_eq_true_eq] at of_title
          exact ⟨of_title.1, of_title.2.2.2⟩
        have with_top : ∀ row ∈ s.albums ++ [membertotopalbum s.albums first], P row := by
          intro row inside
          rcases List.mem_append.mp inside with old | new
          · exact all row old
          · rw [List.mem_singleton.mp new]
            exact tops s.albums first member.2 (all first member.1)
        intro row inside
        obtain ⟨old, of_old, rfl⟩ := List.mem_map.mp inside
        split
        · exact points old _ (with_top old of_old)
        · exact with_top old of_old
      · exact without _

theorem createmergedalbums_all (all : ∀ row ∈ albums, P row) :
    ∀ row ∈ createmergedalbums env albums, P row := by
  have scanned : ∀ (shown : List Nat) (s : MergeState), (∀ row ∈ s.albums, P row) →
      ∀ row ∈ (shown.foldl (mergeScanned env) s).albums, P row := by
    intro shown
    induction shown with
    | nil => exact fun _ all => all
    | cons albid rest ih =>
        intro s all
        rw [List.foldl_cons]
        apply ih
        unfold mergeScanned
        split
        · exact mergeRow_all unset points tops all _
        · exact all
  intro row member
  obtain ⟨old, inside, rfl⟩ := List.mem_map.mp member
  have old_holds := scanned _ _ all old inside
  split
  · exact points old _ old_holds
  · exact old_holds

end Merged

/-- No album has the id zero. -/
def AboveZero (albums : List Album) : Prop := ∀ row ∈ albums, row.album_id ≠ 0

theorem AboveZero.createmergedalbums (above : AboveZero albums) :
    AboveZero (createmergedalbums env albums) := by
  apply createmergedalbums_all
  · exact fun _ above => above
  · exact fun _ _ above => above
  · exact fun _ _ _ _ => Nat.succ_ne_zero _
  · exact above

end Albums

section Built

variable {env : Env} {conf : TagConf} {tables : List (Str × Str)} {earlier : List Str}
  {rcldocs : List Doc} {tags : Tags} {db : Db}

theorem tabled_preparedTags (conf : TagConf) (tables : List (Str × Str)) {tt : Str}
    (member : tt ∈ (preparedTags conf tables).indextags) :
    ((preparedTags conf tables).tagtotable.lookup tt).isSome ∧
      ((preparedTags conf tables).tagdisplaytag.lookup tt).isSome := by
  have indexed : tt ∈ (shownTags conf).map Prod.fst := member
  constructor
  · refine Dict.isSome_lookup_foldl_set (.inl ?_)
    rwa [List.map_fst_zip (by simp)]
  · exact Dict.isSome_lookup_foldl_set (.inl indexed)

/-- What holds of the tables of tracks and albums which a build has made. -/
structure TracksPlaced (db : Db) : Prop where
  docidxs : ((db.tracks.getD []).map Track.docidx).Nodup
  has_album : AlbumsThere db
  shown_as : ∀ alb ∈ db.albums.getD [], ∃ top ∈ db.albums.getD [], top.albtdisc = none ∧
    top.album_id ≠ 0 ∧ alb.albalb = some top.album_id

/-- A build is a pass over the documents from tables without rows, and the merging of albums which
have the ids and the folders of those which the pass has made. -/
theorem stages_of_recolltosql (made : recolltosql env conf tables rcldocs = some (tags, db)) :
    ∃ db₁ db₂ albums covered, db₁.tracks.getD [] = [] ∧ db₁.albums.getD [] = [] ∧
      addDocs env tags rcldocs 0 db₁ = some db₂ ∧ db₂.albums = some albums ∧ FreshRows covered ∧
        (covered.map fun alb => (alb.album_id, alb.albfolder)) =
          (albums.map fun alb => (alb.album_id, alb.albfolder)) ∧
            db = { db₂ with albums := some (createmergedalbums env covered) } := by
  rw [recolltosql_created] at made
  split at made
  · simp only [buildFrom, bind, Option.bind_eq_some_iff] at made
    obtain ⟨⟨db₁, various⟩, inserted, db₂, added, albums, has_albums, covered, covers, same⟩ := made
    cases same
    obtain ⟨kept, not_zero⟩ := auxtableinsert_albums inserted
    obtain ⟨_, _, -, -, -, db₁_eq⟩ := auxtableinsert_spec inserted
    have no_tracks : db₁.tracks.getD [] = [] := by
      rw [db₁_eq]
      dsimp only
      rw [created_tracks]
      split <;> rfl
    have no_albums : db₁.albums.getD [] = [] := by
      rw [kept, created_albums]
      split <;> rfl
    have fresh₁ : FreshDb db₁ := by
      intro rows has_rows
      rw [has_rows, Option.getD_some] at no_albums
      subst no_albums
      refine ⟨fun row member => ?_, fun i row there => ?_⟩
      · cases member
      · cases there
    refine ⟨db₁, db₂, albums, covered, no_tracks, no_albums, added, has_albums, ?_, ?_, rfl⟩
    · exact setalbumcovers_fresh
        (setalbumartists_fresh (addDocs_fresh fresh₁ added albums has_albums) not_zero) covers
    · exact (setalbumcovers_map (fun _ _ => rfl) covers).trans
        (setalbumartists_map (fun _ _ => rfl) various albums)
  · cases made

theorem tracksPlaced_of_recolltosql
    (made : recolltosql env conf tables rcldocs = some (tags, db)) : TracksPlaced db := by
  obtain ⟨db₁, db₂, albums, covered, no_tracks, -, added, has_albums, rows, same_places, rfl⟩ :=
    stages_of_recolltosql made
  have above : AboveZero covered := by
    intro row member
    obtain ⟨i, there⟩ := List.mem_iff_getElem?.mp member
    rw [rows.numbered i row there]
    exact Nat.succ_ne_zero i
  obtain ⟨outcome, tops, s, done, merged⟩ := createmergedalbums_eq env rows.unmerged
  have above_merged : AboveZero (createmergedalbums env covered) := above.createmergedalbums
  have no_albums_lost : albumIds db₂ ⊆
      (createmergedalbums env covered).map Album.album_id := by
    have ids : covered.map Album.album_id = albums.map Album.album_id := by
      have firsts := congrArg (List.map Prod.fst) same_places
      rwa [List.map_map, List.map_map] at firsts
    rw [albumIds, has_albums, Option.getD_some, ← ids, merged]
    intro id inside
    obtain ⟨row, member, rfl⟩ := List.mem_map.mp inside
    refine List.mem_map.mpr ⟨_, done.mem_iff.mpr (.inl ⟨row, member, rfl⟩), ?_⟩
    rw [finish_album_id, settle_album_id]
  have placed : AlbumsThere db₂ := by
    refine AlbumsThere.addDocs ?_ added
    intro row member
    rw [no_tracks] at member
    cases member
  have docidxs : ((db₂.tracks.getD []).map Track.docidx).Nodup := by
    refine addDocs_docidxs added ?_ ?_
    · rw [no_tracks]
      exact List.nodup_nil
    · rw [no_tracks]
      intro row member
      cases member
  refine ⟨docidxs, fun row member => no_albums_lost (placed row member), ?_⟩
  dsimp only [Option.getD_some]
  intro alb member
  rw [merged] at member above_merged ⊢
  rcases done.shapes rows.unmerged member with ⟨no_disc, own⟩ | ⟨-, top, inside, disc, -, points⟩
  · exact ⟨alb, member, no_disc, above_merged alb member, own⟩
  · exact ⟨top, inside, disc, above_merged top inside, points⟩

/-- What is browsed when the tables have been made. -/
def TagTree.ofTables (lower : Str → Str)
    (made : recolltosql env conf (tablesAfter conf earlier alltagtotable) rcldocs =
      some (tags, db)) : TagTree where
  toTagged := Tagged.ofTables lower made
  tags
  tabled tt member := by
    have prepared := (built_of_recolltosql made).prepared
    subst prepared
    exact tabled_preparedTags conf _ member
  table := db.tracks
  tracks_eq := rfl
  docidxs := (tracksPlaced_of_recolltosql made).docidxs
  has_album := (tracksPlaced_of_recolltosql made).has_album
  shown_as := (tracksPlaced_of_recolltosql made).shown_as
  values := db.values
  has_artists := Option.isSome_iff_ne_none.mpr (built_of_recolltosql made).artist
  junctions := db.junctions

end Built

end Upmpdcli.Uprcl
