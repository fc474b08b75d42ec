import Upmpdcli.Lib.MapM
import Upmpdcli.Cdplugins.Uprcl.TagsCreate

set_option autoImplicit false

/- The `albums` table as the pass over the documents leaves it. -/
namespace Upmpdcli.Uprcl

/-- `recolltosql`, up to where the discs are merged. -/
def documentPass (env : Env) (conf : TagConf) (tables : List (Str × Str)) (rcldocs : List Doc) :
    Option (Tags × Db) := do
  let db ← createsqdb conf.accepts tables
  let (tags, db) ← prepareTags conf tables db
  let (db, variousartistsid) ← auxtableinsert db "artist".toList "Various Artists".toList
  let db ← addDocs env tags rcldocs 0 db
  let albums ← db.albums
  let albums ← setalbumcovers env rcldocs (db.tracks.getD [])
    (setalbumartists env variousartistsid albums)
  return (tags, { db with albums := some albums })

theorem recolltosql_eq (env : Env) (conf : TagConf) (tables : List (Str × Str))
    (rcldocs : List Doc) :
    recolltosql env conf tables rcldocs =
      (documentPass env conf tables rcldocs).map fun made =>
        (made.1, { made.2 with albums := made.2.albums.map (createmergedalbums env) }) := by
  simp [recolltosql, documentPass, Option.map_bind]

/-- The `albums` table as the document pass leaves it. -/
structure Unmerged (albums : List Album) : Prop where
  distinct : (albums.map Album.album_id).Nodup
  no_tops : ∀ row ∈ albums, row.albalb = none
  artists : ∀ row ∈ albums, row.artist_id ≠ some 0

/-- A row which has not been merged. No artist has the id zero. -/
structure Fresh (row : Album) : Prop where
  no_top : row.albalb = none
  artist : row.artist_id ≠ some 0
  artists : ∀ ids ∈ row.artists, 0 ∉ ids

/-- The rows are fresh, and the id of each is its place. -/
structure FreshRows (albums : List Album) : Prop where
  fresh : ∀ row ∈ albums, Fresh row
  numbered : ∀ (i : Nat) row, albums[i]? = some row → row.album_id = i + 1

/-- What holds of the database all along the pass. The table may be gone, when a tag has its
name. -/
def FreshDb (db : Db) : Prop := ∀ albums, db.albums = some albums → FreshRows albums

theorem FreshRows.unmerged {albums : List Album} (rows : FreshRows albums) : Unmerged albums where
  no_tops row member := (rows.fresh row member).no_top
  artists row member := (rows.fresh row member).artist
  distinct := by
    have ids : albums.map Album.album_id = (List.range albums.length).map (· + 1) := by
      refine List.ext_getElem (by simp) fun i inside _ => ?_
      rw [List.length_map] at inside
      simpa using rows.numbered i albums[i] (List.getElem?_eq_getElem inside)
    rw [ids]
    exact (List.nodup_range).map fun i j same => by omega

theorem FreshRows.map {albums : List Album} (rows : FreshRows albums) {change : Album → Album}
    (kept : ∀ row, (change row).album_id = row.album_id)
    (fresh : ∀ row ∈ albums, Fresh (change row)) : FreshRows (albums.map change) where
  fresh row member := by
    obtain ⟨old, inside, rfl⟩ := List.mem_map.mp member
    exact fresh old inside
  numbered i row there := by
    rw [List.getElem?_map, Option.map_eq_some_iff] at there
    obtain ⟨old, at_i, rfl⟩ := there
    rw [kept, rows.numbered i old at_i]

section Tables

variable {conf : TagConf} {accepts : Str → Bool} {db db' : Db}

/-- The albums are dropped, or nothing is done to them. -/
def KeepsOrDrops (db db' : Db) : Prop := db'.albums = none ∨ db'.albums = db.albums

theorem KeepsOrDrops.trans {db'' : Db} (first : KeepsOrDrops db db')
    (second : KeepsOrDrops db' db'') : KeepsOrDrops db db'' := by
  rcases second with gone | same
  · exact .inl gone
  · rw [KeepsOrDrops, same]
    exact first

theorem KeepsOrDrops.fresh (kept : KeepsOrDrops db db') (fresh : FreshDb db) : FreshDb db' := by
  intro albums has_albums
  rcases kept with gone | same
  · rw [gone] at has_albums
    cases has_albums
  · exact fresh albums (same ▸ has_albums)

theorem drop_keepsOrDrops (db : Db) (name : Str) : KeepsOrDrops db (db.drop name) := by
  unfold KeepsOrDrops Db.drop
  dsimp only
  split
  · exact .inl rfl
  · exact .inr rfl

theorem createTagTables_keepsOrDrops {tgnm : Str}
    (created : createTagTables accepts db tgnm = some db') : KeepsOrDrops db db' := by
  unfold createTagTables at created
  split at created
  · cases created
    exact (drop_keepsOrDrops db tgnm).trans (drop_keepsOrDrops _ (junctb tgnm))
  · cases created

theorem createsqdb_fresh {tables : List (Str × Str)} (created : createsqdb accepts tables = some db) :
    FreshDb db := by
  have kept : ∀ (names : List Str) (start : Db), FreshDb start →
      names.foldlM (createTagTables accepts) start = some db → FreshDb db := by
    intro names
    induction names with
    | nil =>
        intro start fresh same
        cases same
        exact fresh
    | cons name rest ih =>
        intro start fresh all
        simp only [List.foldlM_cons, bind, Option.bind_eq_some_iff] at all
        obtain ⟨between, first, behind⟩ := all
        exact ih between ((createTagTables_keepsOrDrops first).fresh fresh) behind
  refine kept _ _ ?_ created
  intro albums has_albums
  cases has_albums
  exact ⟨nofun, by simp⟩

theorem tablesFor_keepsOrDrops {tags : List Str} {tables tables' : List (Str × Str)}
    {tbs : List Str} (made : tablesFor conf tags tables db = some (tables', db', tbs)) :
    KeepsOrDrops db db' := by
  induction tags generalizing tables db tbs with
  | nil =>
      cases made
      exact .inr rfl
  | cons nm rest ih =>
      simp only [tablesFor, bind, Option.bind_eq_some_iff] at made
      obtain ⟨⟨tables₁, db₁, tb⟩, first, ⟨tables₂, db₂, tbs₂⟩, behind, same⟩ := made
      cases same
      refine KeepsOrDrops.trans ?_ (ih behind)
      unfold tableFor at first
      split at first
      · cases first
        exact .inr rfl
      · rw [Option.map_eq_some_iff] at first
        obtain ⟨made, created, same⟩ := first
        cases same
        exact createTagTables_keepsOrDrops created

theorem prepareTags_fresh {tables : List (Str × Str)} {tags : Tags} (fresh : FreshDb db)
    (made : prepareTags conf tables db = some (tags, db')) : FreshDb db' := by
  simp only [prepareTags, bind, Option.bind_eq_some_iff] at made
  obtain ⟨⟨tables₁, db₁, tbs₁⟩, first, ⟨tables₂, db₂, tbs₂⟩, second, same⟩ := made
  cases same
  exact ((tablesFor_keepsOrDrops first).trans (tablesFor_keepsOrDrops second)).fresh fresh

end Tables

section Documents

variable {env : Env} {db db' : Db} {doc : Doc}

theorem RowAt.ne_zero {ρ : Type} {rows : List ρ} {row : ρ} {id : Nat} (at_id : RowAt rows row id) :
    id ≠ 0 := by
  obtain ⟨i, rfl, -⟩ := at_id
  exact Nat.succ_ne_zero i

theorem auxtableinsert_albums {tb value : Str} {rowid : Nat}
    (inserted : auxtableinsert db tb value = some (db', rowid)) :
    db'.albums = db.albums ∧ rowid ≠ 0 := by
  obtain ⟨values, values', -, at_id, -, rfl⟩ := auxtableinsert_spec inserted
  exact ⟨rfl, at_id.ne_zero⟩

theorem albumArtist_albums {artist_id : Option Nat}
    (inserted : albumArtist db doc = some (db', artist_id)) :
    db'.albums = db.albums ∧ artist_id ≠ some 0 := by
  unfold albumArtist at inserted
  split at inserted
  · cases inserted
    exact ⟨rfl, nofun⟩
  · rw [Option.map_eq_some_iff] at inserted
    obtain ⟨⟨made, rowid⟩, first, same⟩ := inserted
    cases same
    obtain ⟨kept, not_zero⟩ := auxtableinsert_albums first
    exact ⟨kept, fun zero => not_zero (Option.some.inj zero)⟩

theorem FreshRows.insert {albums : List Album} (rows : FreshRows albums) (key : AlbumKey)
    {artist_id : Option Nat} (artist : artist_id ≠ some 0) (doc : Doc) :
    FreshRows (albums ++ [newAlbum albums key artist_id doc]) where
  fresh row member := by
    rcases List.mem_append.mp member with old | new
    · exact rows.fresh row old
    · rw [List.mem_singleton.mp new]
      exact ⟨rfl, artist, nofun⟩
  numbered i row there := by
    rw [List.getElem?_append] at there
    split at there
    · exact rows.numbered i row there
    · rename_i past
      rw [List.getElem?_singleton] at there
      split at there
      · cases there
        show albums.length + 1 = i + 1
        omega
      · cases there

theorem maybecreatealbum_fresh {album_id : Nat} (fresh : FreshDb db)
    (made : maybecreatealbum env db doc = some (db', album_id)) : FreshDb db' := by
  simp only [maybecreatealbum, bind, Option.bind_eq_some_iff] at made
  obtain ⟨key, -, ⟨db₁, artist_id⟩, artist, rest⟩ := made
  obtain ⟨kept, not_zero⟩ := albumArtist_albums artist
  have fresh₁ : FreshDb db₁ := KeepsOrDrops.fresh (.inr kept) fresh
  dsimp only at rest
  split at rest
  · cases rest
  · rw [Option.bind_eq_some_iff] at rest
    obtain ⟨albums, has_albums, placed⟩ := rest
    split at placed
    · cases placed
      exact fresh₁
    · cases placed
      intro rows has_rows
      cases has_rows
      exact (fresh₁ albums has_albums).insert key not_zero doc

theorem insertValues_albums {docidx : Nat} {tb : Str} {texts : List Str} {rowids : List Nat}
    (inserted : insertValues docidx tb texts db = some (db', rowids)) :
    db'.albums = db.albums ∧ 0 ∉ rowids := by
  induction texts generalizing db rowids with
  | nil =>
      cases inserted
      exact ⟨rfl, nofun⟩
  | cons value rest ih =>
      simp only [insertValues, bind, Option.bind_eq_some_iff] at inserted
      obtain ⟨⟨between, rowid⟩, first, ⟨last, later⟩, behind, same⟩ := inserted
      cases same
      obtain ⟨values, values', rows, -, at_id, -, -, rfl⟩ := insertValue_spec first
      obtain ⟨kept, none_zero⟩ := ih behind
      refine ⟨kept, ?_⟩
      rw [List.mem_cons, not_or]
      exact ⟨Ne.symm at_id.ne_zero, none_zero⟩

theorem updatealbartistlist_fresh {album_id : Nat} {rowids : List Nat} (fresh : FreshDb db)
    (none_zero : 0 ∉ rowids) : FreshDb (updatealbartistlist db album_id rowids) := by
  intro albums has_albums
  rw [updatealbartistlist, Option.map_eq_some_iff] at has_albums
  obtain ⟨old, had, rfl⟩ := has_albums
  have rows := fresh old had
  refine rows.map (fun row => by split <;> rfl) fun row member => ?_
  have row_fresh := rows.fresh row member
  split
  · refine ⟨row_fresh.no_top, row_fresh.artist, fun ids inside => ?_⟩
    rcases List.mem_append.mp inside with before | new
    · exact row_fresh.artists ids before
    · rwa [List.mem_singleton.mp new]
  · exact row_fresh

theorem insertTag_fresh {docidx album_id : Nat} {tag : Str × Str} (fresh : FreshDb db)
    (inserted : insertTag docidx album_id doc db tag = some db') : FreshDb db' := by
  simp only [insertTag, bind, Option.bind_eq_some_iff] at inserted
  obtain ⟨⟨between, rowids⟩, first, done⟩ := inserted
  obtain ⟨kept, none_zero⟩ := insertValues_albums first
  have fresh₁ : FreshDb between := KeepsOrDrops.fresh (.inr kept) fresh
  dsimp only at done
  split at done
  · cases done
    exact updatealbartistlist_fresh fresh₁ (by rwa [List.mem_eraseDups])
  · cases done
    exact fresh₁

theorem insertTags_fresh {docidx album_id : Nat} {tags : List (Str × Str)} (fresh : FreshDb db)
    (inserted : tags.foldlM (insertTag docidx album_id doc) db = some db') : FreshDb db' := by
  induction tags generalizing db with
  | nil =>
      cases inserted
      exact fresh
  | cons tag rest ih =>
      simp only [List.foldlM_cons, bind, Option.bind_eq_some_iff] at inserted
      obtain ⟨between, first, behind⟩ := inserted
      exact ih (insertTag_fresh fresh first) behind

theorem addDoc_fresh {tags : Tags} {docidx : Nat} (fresh : FreshDb db)
    (added : addDoc env tags db doc docidx = some db') : FreshDb db' := by
  unfold addDoc at added
  split at added
  · simp only [bind, Option.bind_eq_some_iff] at added
    obtain ⟨⟨made, album_id⟩, created, tagged, inserted, last⟩ := added
    dsimp only at inserted last
    split at last
    · cases last
    · rw [Option.bind_eq_some_iff] at last
      obtain ⟨tracks, -, same⟩ := last
      cases same
      have fresh' : FreshDb tagged :=
        insertTags_fresh (maybecreatealbum_fresh fresh created) inserted
      exact fresh'
  · cases added
    exact fresh

theorem addDocs_fresh {tags : Tags} {docs : List Doc} {docidx : Nat} (fresh : FreshDb db)
    (added : addDocs env tags docs docidx db = some db') : FreshDb db' := by
  induction docs generalizing db docidx with
  | nil =>
      cases added
      exact fresh
  | cons doc rest ih =>
      simp only [addDocs, Option.bind_eq_some_iff] at added
      obtain ⟨between, first, behind⟩ := added
      exact ih (addDoc_fresh fresh first) behind

theorem foldl_filter_subset (sets : List (List Nat)) (shared : List Nat) :
    sets.foldl (fun shared ids => shared.filter (ids.contains ·)) shared ⊆ shared := by
  induction sets generalizing shared with
  | nil => exact List.Subset.refl shared
  | cons ids rest ih => exact List.Subset.trans (ih _) fun _ => List.mem_of_mem_filter

theorem setalbumartists_fresh {albums : List Album} {variousartistsid : Nat}
    (rows : FreshRows albums) (not_zero : variousartistsid ≠ 0) :
    FreshRows (setalbumartists env variousartistsid albums) := by
  refine rows.map (fun row => by split <;> rfl) fun row member => ?_
  have fresh := rows.fresh row member
  split
  · exact fresh
  · exact ⟨fresh.no_top, fun zero => not_zero (Option.some.inj zero), fresh.artists⟩
  · rename_i first rest _ has_artists
    refine ⟨fresh.no_top, fun zero => ?_, fresh.artists⟩
    have zero := Option.some.inj zero
    split at zero
    · exact not_zero zero
    · rename_i shared
      have inside := foldl_filter_subset rest first (env.firstOf_mem _ shared)
      rw [zero] at inside
      exact fresh.artists first (has_artists ▸ List.mem_cons_self) inside

theorem setalbumcovers_fresh {albums covered : List Album} {rcldocs : List Doc}
    {tracks : List Track} (rows : FreshRows albums)
    (covers : setalbumcovers env rcldocs tracks albums = some covered) : FreshRows covered := by
  have one : ∀ row row', (do
      let inOrder := (tracks.filter fun track => track.album_id = row.album_id).insertionSort
        fun first second => first.path ≤ second.path
      let cover ← albumCover env rcldocs row.albtitle inOrder
      return if cover = none then row else { row with albarturi := cover }) = some row' →
        row'.album_id = row.album_id ∧ (Fresh row → Fresh row') := by
    intro row row' made
    simp only [bind, Option.bind_eq_some_iff] at made
    obtain ⟨cover, -, same⟩ := made
    cases same
    split
    · exact ⟨rfl, id⟩
    · exact ⟨rfl, fun fresh => ⟨fresh.no_top, fresh.artist, fresh.artists⟩⟩
  constructor
  · intro row' member
    obtain ⟨row, inside, made⟩ := MapM.mem_of_eq_some covers member
    exact (one row row' made).2 (rows.fresh row inside)
  · intro i row' there
    obtain ⟨row, at_i, made⟩ := MapM.getElem?_of_eq_some covers there
    rw [(one row row' made).1, rows.numbered i row at_i]

/-- The pass leaves a table whose rows wait to be merged. -/
theorem unmerged_of_documentPass {conf : TagConf} {tables : List (Str × Str)}
    {rcldocs : List Doc} {made : Tags × Db} {albums : List Album}
    (passed : documentPass env conf tables rcldocs = some made)
    (has_albums : made.2.albums = some albums) : Unmerged albums := by
  simp only [documentPass, bind, Option.bind_eq_some_iff] at passed
  obtain ⟨db₀, created, ⟨tags, db₁⟩, prepared, ⟨db₂, various⟩, inserted, db₃, added,
    before, had, covered, covers, same⟩ := passed
  cases same
  cases has_albums
  obtain ⟨kept, not_zero⟩ := auxtableinsert_albums inserted
  have fresh₂ : FreshDb db₂ :=
    KeepsOrDrops.fresh (.inr kept) (prepareTags_fresh (createsqdb_fresh created) prepared)
  have rows := addDocs_fresh fresh₂ added before had
  exact (setalbumcovers_fresh (setalbumartists_fresh rows not_zero) covers).unmerged

end Documents

end Upmpdcli.Uprcl
