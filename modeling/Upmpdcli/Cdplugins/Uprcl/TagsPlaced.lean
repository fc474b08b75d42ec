import Upmpdcli.Cdplugins.Uprcl.TagsBuilt
import Upmpdcli.Cdplugins.Uprcl.TagsView

set_option autoImplicit false

/- Where the files of the tracks are which a build of the tables has found. -/
namespace Upmpdcli.Uprcl

section Pass

variable {env : Env} {tags : Tags} {db db' : Db} {doc : Doc}

/-- The folders of the albums. -/
def places (db : Db) : List (Nat × Str) :=
  (db.albums.getD []).map fun alb => (alb.album_id, alb.albfolder)

theorem places_of_eq (same : db'.albums = db.albums) : places db' = places db := by
  rw [places, places, same]

theorem insertTag_places {docidx album_id : Nat} {tag : Str × Str}
    (inserted : insertTag docidx album_id doc db tag = some db') : places db' = places db :=
  insertTag_map_albums (fun _ _ => rfl) inserted

/-- The album of a track is one of its folder, which may be new. -/
theorem maybecreatealbum_places {album_id : Nat}
    (created : maybecreatealbum env db doc = some (db', album_id)) :
    ∃ folder, fileFolder env doc = some folder ∧ (album_id, folder) ∈ places db' ∧
      (places db' = places db ∨ places db' = places db ++ [(album_id, folder)]) := by
  simp only [maybecreatealbum, bind, Option.bind_eq_some_iff] at created
  obtain ⟨key, has_key, ⟨between, artist_id⟩, artist, last⟩ := created
  have kept := places_of_eq (albumArtist_albums artist).1
  have folder : fileFolder env doc = some key.albfolder := by
    obtain ⟨path, has_path, same⟩ := Option.map_eq_some_iff.mp has_key
    rw [fileFolder, has_path, ← same]
    rfl
  simp only [Option.ite_none_left_eq_some, Option.bind_eq_some_iff] at last
  obtain ⟨-, albums, has_albums, last⟩ := last
  have rows : places between = albums.map fun alb => (alb.album_id, alb.albfolder) := by
    rw [places, has_albums, Option.getD_some]
  refine ⟨key.albfolder, folder, ?_⟩
  rw [← kept]
  split at last
  · rename_i row found
    cases last
    refine ⟨?_, .inl rfl⟩
    have finds := List.find?_some found
    rw [AlbumKey.finds, decide_eq_true_eq] at finds
    rw [rows, ← finds.2.1]
    exact List.mem_map_of_mem (List.mem_of_find?_eq_some found)
  · cases last
    have grown : places { between with albums := some (albums ++ [newAlbum albums key artist_id doc]) } =
        places between ++ [(albums.length + 1, key.albfolder)] := by
      rw [rows, places, Option.getD_some, List.map_append]
      rfl
    refine ⟨?_, .inr grown⟩
    rw [grown]
    exact List.mem_append_right _ List.mem_cons_self

/-- A document which is a track makes a row, of an album of its folder. -/
theorem addDoc_places {docidx : Nat} (added : addDoc env tags db doc docidx = some db') :
    (isTrack doc = false ∧ db' = db) ∨
      (isTrack doc = true ∧ ∃ row folder, db'.tracks.getD [] = db.tracks.getD [] ++ [row] ∧
        row.docidx = docidx ∧ row.path = trackPath doc ∧ fileFolder env doc = some folder ∧
          (row.album_id, folder) ∈ places db' ∧
            (places db' = places db ∨ places db' = places db ++ [(row.album_id, folder)])) := by
  unfold addDoc at added
  split at added
  · rename_i track
    right
    simp only [bind, Option.bind_eq_some_iff] at added
    obtain ⟨⟨made, album_id⟩, created, tagged, inserted, last⟩ := added
    simp only [Option.ite_none_left_eq_some, Option.bind_eq_some_iff] at last
    obtain ⟨-, tracks, has_tracks, same⟩ := last
    cases same
    have kept : places tagged = places made :=
      Fold.foldlM_keeps (I := fun db => places db = places made)
        (fun _ _ _ before turn => (insertTag_places turn).trans before) rfl inserted
    have unchanged : tagged.tracks = made.tracks :=
      Fold.foldlM_keeps (I := fun db => db.tracks = made.tracks)
        (fun _ _ _ before turn => (insertTag_tracks turn).trans before) rfl inserted
    have before : db.tracks = some tracks := by
      rw [← (maybecreatealbum_tracks created).1, ← unchanged, has_tracks]
    obtain ⟨folder, has_folder, own, grown⟩ := maybecreatealbum_places created
    rw [← kept] at own grown
    refine ⟨track, ⟨docidx, album_id, tracknofordoc doc, trackPath doc⟩, folder, ?_, rfl, rfl,
      has_folder, own, grown⟩
    rw [before]
    rfl
  · rename_i other
    cases added
    exact .inl ⟨Bool.eq_false_iff.mpr other, rfl⟩

/-- What the pass over the documents has made of the first ones. -/
structure Placed (env : Env) (rcldocs : List Doc) (count : Nat) (db : Db) : Prop where
  row_of : ∀ i doc, i < count → rcldocs[i]? = some doc → isTrack doc →
    ∃ row ∈ db.tracks.getD [], row.docidx = i
  row_spec : ∀ row ∈ db.tracks.getD [], ∃ doc, rcldocs[row.docidx]? = some doc ∧ isTrack doc ∧
    row.path = trackPath doc ∧
      ∃ folder, fileFolder env doc = some folder ∧ (row.album_id, folder) ∈ places db
  track_of : ∀ place ∈ places db, ∃ row ∈ db.tracks.getD [], row.album_id = place.1

variable {rcldocs : List Doc} {count : Nat}

theorem Placed.addDoc (placed : Placed env rcldocs count db) (there : rcldocs[count]? = some doc)
    (added : addDoc env tags db doc count = some db') : Placed env rcldocs (count + 1) db' := by
  rcases addDoc_places added with ⟨other, rfl⟩ | ⟨track, row, folder, rows, place, path, has_folder,
    own, grown⟩
  · refine ⟨fun i doc' before has_doc track => ?_, placed.row_spec, placed.track_of⟩
    rcases Nat.lt_succ_iff_lt_or_eq.mp before with earlier | rfl
    · exact placed.row_of i doc' earlier has_doc track
    · rw [there, Option.some.injEq] at has_doc
      rw [← has_doc, other] at track
      cases track
  · have more : places db ⊆ places db' := by
      rcases grown with same | same
      · rw [same]
        exact List.Subset.refl _
      · rw [same]
        exact List.subset_append_left _ _
    refine ⟨fun i doc' before has_doc track => ?_, fun row' member => ?_, fun place' member => ?_⟩
    · rw [rows]
      rcases Nat.lt_succ_iff_lt_or_eq.mp before with earlier | rfl
      · obtain ⟨row', inside, same⟩ := placed.row_of i doc' earlier has_doc track
        exact ⟨row', List.mem_append_left _ inside, same⟩
      · exact ⟨row, List.mem_append_right _ List.mem_cons_self, place⟩
    · rw [rows] at member
      rcases List.mem_append.mp member with old | new
      · obtain ⟨doc', has_doc, track', path', folder', has_folder', own'⟩ := placed.row_spec row' old
        exact ⟨doc', has_doc, track', path', folder', has_folder', more own'⟩
      · rw [List.mem_singleton.mp new]
        exact ⟨doc, place ▸ there, track, path, folder, has_folder, own⟩
    · rw [rows]
      have of_old (old : place' ∈ places db) :
          ∃ row' ∈ db.tracks.getD [] ++ [row], row'.album_id = place'.1 := by
        obtain ⟨row', inside, same⟩ := placed.track_of place' old
        exact ⟨row', List.mem_append_left _ inside, same⟩
      rcases grown with same | same
      · exact of_old (same ▸ member)
      · rw [same] at member
        rcases List.mem_append.mp member with old | new
        · exact of_old old
        · rw [List.mem_singleton.mp new]
          exact ⟨row, List.mem_append_right _ List.mem_cons_self, rfl⟩

theorem Placed.addDocs {docs : List Doc} (placed : Placed env rcldocs count db)
    (rest : rcldocs.drop count = docs) (added : addDocs env tags docs count db = some db') :
    Placed env rcldocs rcldocs.length db' := by
  induction docs generalizing count db with
  | nil =>
      cases added
      have done := List.drop_eq_nil_iff.mp rest
      exact ⟨fun i doc before has_doc track => placed.row_of i doc (by omega) has_doc track,
        placed.row_spec, placed.track_of⟩
  | cons doc docs ih =>
      obtain ⟨between, first, later⟩ := Option.bind_eq_some_iff.mp added
      have there : rcldocs[count]? = some doc := by
        rw [← List.head?_drop, rest]
        rfl
      refine ih (placed.addDoc there first) ?_ later
      rw [← List.tail_drop, rest]
      rfl

end Pass

section Merge

variable {env : Env} {albums : List Album} {alb : Album} {tops : List Album}
  {outcome : GroupKey → Option Outcome} {s : MergeState}

/-- The folder of a row and the group which it belongs to are those of an old row, which is a disc
if the row still is one or if it is new. -/
def CopyOf (albums : List Album) (alb : Album) : Prop :=
  ∃ row ∈ albums, alb.albfolder = row.albfolder ∧ alb.groupKey = row.groupKey ∧
    (alb.albtdisc ≠ none ∨ alb.album_id ∉ albums.map Album.album_id → candidate row = true)

theorem copyOf_createmergedalbums (unmerged : Unmerged albums) :
    ∀ alb ∈ createmergedalbums env albums, CopyOf albums alb := by
  apply createmergedalbums_all
  · rintro alb ⟨row, member, folder, key, disc⟩
    refine ⟨row, member, folder, key, fun new => disc (.inr ?_)⟩
    exact new.resolve_left fun has_disc => has_disc rfl
  · exact fun _ _ copy => copy
  · rintro _ first is_candidate ⟨row, member, folder, key, disc⟩
    have has_disc : first.albtdisc ≠ none := by
      simp only [candidate, decide_eq_true_eq] at is_candidate
      exact is_candidate.2
    exact ⟨row, member, folder, key, fun _ => disc (.inl has_disc)⟩
  · intro row member
    refine ⟨row, member, rfl, rfl, ?_⟩
    rintro (has_disc | new)
    · simp [candidate, unmerged.no_tops row member, has_disc]
    · exact absurd (List.mem_map_of_mem member) new

/-- Each album has a part which was there before the merging, in the same folder. -/
theorem Scanned.part (unmerged : Unmerged albums) (done : Scanned albums outcome tops s)
    (member : alb ∈ s.albums.map finish) (copy : CopyOf albums alb) :
    ∃ row ∈ albums, ∃ own ∈ s.albums.map finish, own.album_id = row.album_id ∧
      own.albfolder = alb.albfolder ∧ own.albalb = alb.albalb := by
  rcases done.mem_iff.mp member with ⟨row, old, rfl⟩ | ⟨top, new, rfl⟩
  · exact ⟨row, old, _, member, by simp, rfl, rfl⟩
  · obtain ⟨row, old, folder, key, disc⟩ := copy
    obtain ⟨no_disc, -, merged⟩ := done.top_rows top new
    have fresh : (finish top).album_id ∉ albums.map Album.album_id := by
      intro inside
      obtain ⟨other, other_old, same⟩ := List.mem_map.mp inside
      have distinct := done.distinct
      rw [done.rows, List.map_append, List.nodup_append] at distinct
      have old_id := List.mem_map_of_mem (f := Album.album_id)
        (List.mem_map_of_mem (f := settle outcome) other_old)
      refine distinct.2.2 _ old_id _ (List.mem_map_of_mem new) ?_
      rw [settle_album_id, same, finish_album_id]
    have is_candidate := disc (.inr fresh)
    rw [finish_groupKey] at key
    have of_group : row ∈ group albums top.groupKey := mem_group.mpr ⟨old, is_candidate, key.symm⟩
    obtain ⟨-, shape⟩ := done.disc_row unmerged of_group merged
    refine ⟨row, old, finish (settle outcome row), ?_, by simp, ?_, ?_⟩
    · exact done.mem_iff.mpr (.inl ⟨row, old, rfl⟩)
    · rw [folder, finish_albfolder, settle_albfolder]
    · rw [shape, finish, if_pos no_disc]

end Merge

section Built

variable {env : Env} {conf : TagConf} {tables : List (Str × Str)} {earlier : List Str}
  {rcldocs : List Doc} {tags : Tags} {db : Db}

theorem filesPlaced_ofTables (lower : Str → Str)
    (made : recolltosql env conf (tablesAfter conf earlier alltagtotable) rcldocs =
      some (tags, db)) : (TagTree.ofTables lower made).FilesPlaced := by
  obtain ⟨db₁, db₂, albums, covered, no_tracks, no_albums, added, has_albums, rows, same_places,
    db_eq⟩ := stages_of_recolltosql made
  obtain ⟨outcome, tops, s, done, merged⟩ := createmergedalbums_eq env rows.unmerged
  have placed : Placed env rcldocs rcldocs.length db₂ := by
    have start : Placed env rcldocs 0 db₁ := by
      refine ⟨fun i doc before => absurd before (Nat.not_lt_zero i), ?_, ?_⟩
      · rw [no_tracks]
        intro row member
        cases member
      · rw [places, no_albums]
        intro place member
        cases member
    exact start.addDocs rfl added
  have of_places {place : Nat × Str} :
      place ∈ places db₂ ↔ ∃ row ∈ covered, (row.album_id, row.albfolder) = place := by
    rw [places, has_albums, Option.getD_some, ← same_places, List.mem_map]
  have final : (TagTree.ofTables lower made).albums = s.albums.map finish := by
    show db.albums.getD [] = _
    rw [db_eq, Option.getD_some, merged]
  have tracks : (TagTree.ofTables lower made).tracks = db₂.tracks.getD [] := by
    show db.tracks.getD [] = _
    rw [db_eq]
  refine ⟨fun i doc there track => ?_, fun row member => ?_, fun row member => ?_,
    fun alb member => ?_⟩
  · have before := (List.getElem?_eq_some_iff.mp there).1
    obtain ⟨row, inside, same⟩ := placed.row_of i doc before there track
    exact ⟨row, tracks ▸ inside, same⟩
  · obtain ⟨doc, there, track, path, -⟩ := placed.row_spec row (tracks ▸ member)
    exact ⟨doc, there, track, path⟩
  · obtain ⟨doc, there, -, -, folder, has_folder, own⟩ := placed.row_spec row (tracks ▸ member)
    obtain ⟨alb, old, same⟩ := of_places.mp own
    rw [Prod.mk.injEq] at same
    refine ⟨doc, there, finish (settle outcome alb), ?_, ?_, ?_⟩
    · rw [final]
      exact done.mem_iff.mpr (.inl ⟨alb, old, rfl⟩)
    · rw [finish_album_id, settle_album_id, same.1]
    · rw [finish_albfolder, settle_albfolder, same.2]
      exact has_folder
  · have in_final : alb ∈ s.albums.map finish := final ▸ member
    have copy := copyOf_createmergedalbums rows.unmerged alb (merged ▸ in_final)
    obtain ⟨row, old, own, own_final, own_id, same_folder, same_album⟩ :=
      done.part rows.unmerged in_final copy
    obtain ⟨track, inside, of_album⟩ := placed.track_of _ (of_places.mpr ⟨row, old, rfl⟩)
    refine ⟨track, tracks ▸ inside, own, ?_, own_id.trans of_album.symm, same_folder, same_album⟩
    rw [final]
    exact own_final

end Built

end Upmpdcli.Uprcl
