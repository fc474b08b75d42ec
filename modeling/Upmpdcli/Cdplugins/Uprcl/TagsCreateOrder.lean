import Upmpdcli.Lib.MapM
import Upmpdcli.Cdplugins.Uprcl.TagsCreate

set_option autoImplicit false

/- How the tracks are grouped into albums, and where the order of the documents matters to it. -/
namespace Upmpdcli.Uprcl

/-- `_maybecreatealbum` for one document after the other, with the album of each of them. -/
def createAlbums (env : Env) : List Doc → Db → Option (Db × List Nat)
  | [], db => some (db, [])
  | doc :: rest, db => do
      let (db, album_id) ← maybecreatealbum env db doc
      let (db, album_ids) ← createAlbums env rest db
      return (db, album_id :: album_ids)

/-- What a row shows of an album. -/
def Album.key (row : Album) : AlbumKey := ⟨row.albtitle, row.albfolder, row.albtdisc⟩

def AlbumKey.findsKey (key other : AlbumKey) : Bool :=
  key.finds other.albtitle other.albfolder other.albtdisc

/-- The key of a document which an album can be made for. -/
def usableKey (env : Env) (doc : Doc) : Option AlbumKey :=
  (albumKey env doc).filter fun key => fitsInteger (key.albtdisc.getD 0)

/-- This row is the album of the document. -/
def AlbumIs (docs : List Doc) (made : Db × List Nat) (doc : Doc) (row : Album) : Prop :=
  row ∈ made.1.albums.getD [] ∧ (doc, row.album_id) ∈ docs.zip made.2

/-- Two passes over the same documents group them in the same way. -/
structure AlikeAlbums (first : List Doc) (made : Db × List Nat) (second : List Doc)
    (made' : Db × List Nat) : Prop where
  grouped : ∀ doc ∈ first, (∃ row, AlbumIs first made doc row) ∧ ∃ row, AlbumIs second made' doc row
  together : ∀ doc row row', AlbumIs first made doc row → AlbumIs second made' doc row' →
    ∀ other orow orow', AlbumIs first made other orow → AlbumIs second made' other orow' →
      (row.album_id = orow.album_id ↔ row'.album_id = orow'.album_id)
  same_row : ∀ doc row row', AlbumIs first made doc row → AlbumIs second made' doc row' →
    row.key = row'.key

/-- Both passes fail, or they group the documents in the same way. -/
def AlikePasses (env : Env) (db : Db) (first second : List Doc) : Prop :=
  match createAlbums env first db, createAlbums env second db with
  | some made, some made' => AlikeAlbums first made second made'
  | none, none => True
  | _, _ => False

/-- Where a document has no disc number, no other one with its title and folder has one. A zero
is taken for no disc number, but makes another album. -/
def DiscsUniform (env : Env) (docs : List Doc) : Prop :=
  ∀ doc ∈ docs, ∀ other ∈ docs, ∀ key okey, albumKey env doc = some key →
    albumKey env other = some okey → okey.albtitle = key.albtitle →
      okey.albfolder = key.albfolder → noDisc key.albtdisc = true → okey.albtdisc = key.albtdisc

section Keys

/-- The album of a key, which is made when there is none. -/
def place (rows : List AlbumKey) (key : AlbumKey) : List AlbumKey × Nat :=
  match rows.findIdx? key.findsKey with
  | some i => (rows, i + 1)
  | none => (rows ++ [key], rows.length + 1)

def placeAll : List AlbumKey → List AlbumKey → List AlbumKey × List Nat
  | [], rows => (rows, [])
  | key :: rest, rows =>
      let placed := place rows key
      let all := placeAll rest placed.1
      (all.1, placed.2 :: all.2)

variable {rows : List AlbumKey} {key : AlbumKey}

theorem findsKey_self (key : AlbumKey) : key.findsKey key = true := by
  simp [AlbumKey.findsKey, AlbumKey.finds]

theorem place_cases (rows : List AlbumKey) (key : AlbumKey) :
    (∃ i row, rows[i]? = some row ∧ key.findsKey row = true ∧ place rows key = (rows, i + 1)) ∨
      (∀ row ∈ rows, key.findsKey row = false) ∧
        place rows key = (rows ++ [key], rows.length + 1) := by
  unfold place
  cases found : rows.findIdx? key.findsKey with
  | none =>
      rw [List.findIdx?_eq_none_iff] at found
      exact .inr ⟨found, rfl⟩
  | some i =>
      obtain ⟨inside, finds, -⟩ := List.findIdx?_eq_some_iff_getElem.mp found
      exact .inl ⟨i, rows[i], List.getElem?_eq_getElem inside, finds, rfl⟩

theorem place_extends (rows : List AlbumKey) (key : AlbumKey) : rows <+: (place rows key).1 := by
  rcases place_cases rows key with ⟨_, _, _, _, placed⟩ | ⟨_, placed⟩
  · simp [placed]
  · simp [placed]

theorem placeAll_extends (keys rows : List AlbumKey) : rows <+: (placeAll keys rows).1 := by
  induction keys generalizing rows with
  | nil => exact List.prefix_refl rows
  | cons key rest ih => exact (place_extends rows key).trans (ih (place rows key).1)

/-- A key which finds nothing but itself gets the row with this key. -/
theorem place_spec (only : ∀ row ∈ rows, key.findsKey row = true → row = key)
    (distinct : rows.Nodup) :
    RowAt (place rows key).1 key (place rows key).2 ∧ (place rows key).1.Nodup ∧
      ∀ row ∈ (place rows key).1, row ∈ rows ∨ row = key := by
  rcases place_cases rows key with ⟨i, row, there, finds, placed⟩ | ⟨none_found, placed⟩
  · rw [placed]
    have same := only row (List.mem_of_getElem? there) finds
    exact ⟨⟨i, rfl, same ▸ there⟩, distinct, fun _ member => .inl member⟩
  · rw [placed]
    have absent : key ∉ rows := fun member => by
      have found := none_found key member
      rw [findsKey_self] at found
      cases found
    refine ⟨⟨rows.length, rfl, by simp⟩, ?_, by simp⟩
    rw [List.nodup_append]
    simp only [distinct, List.nodup_singleton, List.mem_singleton, true_and]
    rintro row member _ rfl rfl
    exact absent member

/-- In a uniform set, every key is placed at the row which has it. -/
theorem placeAll_spec {keys : List AlbumKey}
    (only : ∀ key ∈ keys, ∀ row ∈ rows ++ keys, key.findsKey row = true → row = key)
    (distinct : rows.Nodup) :
    List.Forall₂ (RowAt (placeAll keys rows).1) keys (placeAll keys rows).2 ∧
      (placeAll keys rows).1.Nodup := by
  induction keys generalizing rows with
  | nil => exact ⟨.nil, distinct⟩
  | cons key rest ih =>
      obtain ⟨placed, distinct', members⟩ :=
        place_spec (fun row member => only key List.mem_cons_self row (by simp [member])) distinct
      have later := ih
        (fun other member row inside => only other (List.mem_cons_of_mem key member) row (by
          rcases List.mem_append.mp inside with before | behind
          · rcases members row before with old | rfl
            · exact List.mem_append_left _ old
            · simp
          · simp [behind])) distinct'
      exact ⟨.cons (placed.mono (placeAll_extends rest _)) later.1, later.2⟩

end Keys

section Passes

variable {env : Env} {db : Db} {albums : List Album} {doc : Doc}

/-- A database in which albums can be made: the id of an album is its place in the table. -/
structure TakesAlbums (db : Db) (albums : List Album) : Prop where
  has_albums : db.albums = some albums
  numbered : ∀ (i : Nat) row, albums[i]? = some row → row.album_id = i + 1
  has_artists : (db.values "artist".toList).isSome = true

theorem TakesAlbums.withTracks (takes : TakesAlbums db albums) (tracks : Option (List Track)) :
    TakesAlbums { db with tracks } albums :=
  ⟨takes.has_albums, takes.numbered, takes.has_artists⟩

/-- No value table goes away when rows are added to one. -/
theorem isSome_update_values {values : Str → Option (List Str)} {name : Str}
    (there : (values name).isSome = true) (tb : Str) (rows : List Str) :
    (Function.update values tb (some rows) name).isSome = true := by
  by_cases same : name = tb
  · rw [same, Function.update_self]
    rfl
  · rw [Function.update_of_ne same]
    exact there

theorem albumArtist_spec (takes : TakesAlbums db albums) (doc : Doc) :
    ∃ db' artist_id, albumArtist db doc = some (db', artist_id) ∧ TakesAlbums db' albums ∧
      db'.tracks = db.tracks := by
  obtain ⟨values, has_values⟩ := Option.isSome_iff_exists.mp takes.has_artists
  unfold albumArtist auxtableinsert
  by_cases unset : doc.get "albumartist" = []
  · exact ⟨db, none, if_pos unset, takes, rfl⟩
  · rw [if_neg unset, has_values, Option.map_some]
    by_cases known : doc.get "albumartist" ∈ values
    · rw [if_pos known]
      exact ⟨_, _, rfl, takes, rfl⟩
    · rw [if_neg known]
      have has_artists := isSome_update_values takes.has_artists "artist".toList
        (values ++ [doc.get "albumartist"])
      exact ⟨_, _, rfl, ⟨takes.has_albums, takes.numbered, has_artists⟩, rfl⟩

theorem TakesAlbums.insert (takes : TakesAlbums db albums) (key : AlbumKey)
    (artist_id : Option Nat) (doc : Doc) :
    TakesAlbums { db with albums := some (albums ++ [newAlbum albums key artist_id doc]) }
      (albums ++ [newAlbum albums key artist_id doc]) where
  has_albums := rfl
  has_artists := takes.has_artists
  numbered i row there := by
    rw [List.getElem?_append] at there
    split at there
    · exact takes.numbered i row there
    · rename_i past
      rw [List.getElem?_singleton] at there
      split at there
      · cases there
        show albums.length + 1 = i + 1
        omega
      · cases there

/-- The album which the query for a key returns is the one at which the key is placed. -/
theorem find_place (takes : TakesAlbums db albums) (key : AlbumKey) :
    match albums.find? fun row => key.finds row.albtitle row.albfolder row.albtdisc with
    | some row => place (albums.map Album.key) key = (albums.map Album.key, row.album_id)
    | none =>
        place (albums.map Album.key) key = (albums.map Album.key ++ [key], albums.length + 1) := by
  have places : (albums.map Album.key).findIdx? key.findsKey =
      albums.findIdx? fun row => key.finds row.albtitle row.albfolder row.albtdisc := by
    rw [List.findIdx?_map]
    rfl
  unfold place
  rw [places]
  cases found : albums.find? fun row => key.finds row.albtitle row.albfolder row.albtdisc with
  | none =>
      have missing : (albums.findIdx? fun row =>
          key.finds row.albtitle row.albfolder row.albtdisc) = none := by
        rw [List.findIdx?_eq_none_iff]
        rw [List.find?_eq_none] at found
        exact fun row member => by simpa using found row member
      rw [missing, List.length_map]
  | some row =>
      obtain ⟨finds, i, inside, rfl, first⟩ := List.find?_eq_some_iff_getElem.mp found
      have at_i : (albums.findIdx? fun row =>
          key.finds row.albtitle row.albfolder row.albtdisc) = some i := by
        rw [List.findIdx?_eq_some_iff_getElem]
        exact ⟨inside, finds, fun j lower => by simpa using first j lower⟩
      rw [at_i]
      dsimp only
      rw [takes.numbered i albums[i] (List.getElem?_eq_getElem inside)]

variable (env) in
/-- `_maybecreatealbum` places the key of the document. -/
theorem maybecreatealbum_spec (takes : TakesAlbums db albums) (doc : Doc) :
    match usableKey env doc with
    | none => maybecreatealbum env db doc = none
    | some key =>
        ∃ db' albums', TakesAlbums db' albums' ∧ db'.tracks = db.tracks ∧
          maybecreatealbum env db doc = some (db', (place (albums.map Album.key) key).2) ∧
          albums'.map Album.key = (place (albums.map Album.key) key).1 := by
  unfold usableKey maybecreatealbum
  cases found : albumKey env doc with
  | none => rfl
  | some key =>
      obtain ⟨db', artist_id, inserted, takes', tracks⟩ := albumArtist_spec takes doc
      rw [Option.filter_some]
      cases fits : fitsInteger (key.albtdisc.getD 0) with
      | false => simp [inserted, fits]
      | true =>
          have placed := find_place takes key
          simp only [inserted, fits, takes'.has_albums, bind, Option.bind, Bool.true_eq_false,
            if_false, if_true]
          cases at_ : albums.find? fun row =>
              key.finds row.albtitle row.albfolder row.albtdisc with
          | none =>
              rw [at_] at placed
              dsimp only at placed ⊢
              rw [placed]
              exact ⟨_, _, takes'.insert key artist_id doc, tracks, rfl,
                by simp [Album.key, newAlbum]⟩
          | some row =>
              rw [at_] at placed
              dsimp only at placed ⊢
              rw [placed]
              exact ⟨db', albums, takes', tracks, rfl, rfl⟩

variable (env) in
/-- The pass places the keys of the documents one after the other, and fails when an album
cannot be made for one of them. -/
theorem createAlbums_spec (takes : TakesAlbums db albums) (docs : List Doc) :
    match docs.mapM (usableKey env) with
    | none => createAlbums env docs db = none
    | some keys =>
        ∃ db' albums', TakesAlbums db' albums' ∧
          createAlbums env docs db = some (db', (placeAll keys (albums.map Album.key)).2) ∧
          albums'.map Album.key = (placeAll keys (albums.map Album.key)).1 := by
  induction docs generalizing db albums with
  | nil => exact ⟨db, albums, takes, rfl, rfl⟩
  | cons doc rest ih =>
      have one := maybecreatealbum_spec env takes doc
      rw [List.mapM_cons, createAlbums]
      cases usable : usableKey env doc with
      | none =>
          rw [usable] at one
          simp [one]
      | some key =>
          rw [usable] at one
          obtain ⟨db', albums', takes', -, created, placed⟩ := one
          have later := ih takes'
          rw [created]
          cases usables : rest.mapM (usableKey env) with
          | none =>
              rw [usables] at later
              simp [later]
          | some keys =>
              rw [usables] at later
              obtain ⟨db'', albums'', takes'', created', placed'⟩ := later
              rw [placed] at created' placed'
              exact ⟨db'', albums'', takes'', by simp [created', placeAll], placed'⟩

/-- Every document has an album, which has its key, and no other album has this key. -/
structure OwnAlbums (env : Env) (docs : List Doc) (made : Db × List Nat) : Prop where
  grouped : ∀ doc ∈ docs, ∃ row, AlbumIs docs made doc row
  has_key : ∀ doc row, AlbumIs docs made doc row → usableKey env doc = some row.key
  one_row : ∀ row ∈ made.1.albums.getD [], ∀ other ∈ made.1.albums.getD [],
    row.album_id = other.album_id ↔ row.key = other.key

variable {docs : List Doc}

theorem mem_zip_of_placed {keys : List AlbumKey} {rows : List AlbumKey} {ids : List Nat}
    (usable : docs.mapM (usableKey env) = some keys)
    (placed : List.Forall₂ (RowAt rows) keys ids) :
    (∀ doc ∈ docs, ∃ id, (doc, id) ∈ docs.zip ids) ∧
      ∀ doc id, (doc, id) ∈ docs.zip ids → ∃ key, usableKey env doc = some key ∧
        RowAt rows key id := by
  induction docs generalizing keys ids with
  | nil => simp
  | cons doc rest ih =>
      simp only [List.mapM_cons, bind, Option.bind_eq_some_iff] at usable
      obtain ⟨key, key_of, keys', keys_of, same⟩ := usable
      cases same
      cases placed with
      | @cons _ id _ ids' first later =>
          obtain ⟨all, each⟩ := ih keys_of later
          rw [List.zip_cons_cons]
          constructor
          · intro other member
            rcases List.mem_cons.mp member with rfl | behind
            · exact ⟨id, List.mem_cons_self⟩
            · obtain ⟨id', there⟩ := all other behind
              exact ⟨id', List.mem_cons_of_mem _ there⟩
          · intro other id' member
            rcases List.mem_cons.mp member with same | behind
            · cases same
              exact ⟨key, key_of, first⟩
            · exact each other id' behind

/-- A uniform set of documents. -/
theorem createAlbums_own (takes : TakesAlbums db []) {keys : List AlbumKey}
    (usable : docs.mapM (usableKey env) = some keys)
    (only : ∀ key ∈ keys, ∀ row ∈ keys, key.findsKey row = true → row = key) :
    ∃ made, createAlbums env docs db = some made ∧ OwnAlbums env docs made := by
  have created := createAlbums_spec env takes docs
  rw [usable] at created
  obtain ⟨db', albums', takes', created, rows⟩ := created
  obtain ⟨placed, distinct⟩ := @placeAll_spec [] _ (by simpa using only) List.nodup_nil
  rw [List.map_nil] at created rows
  rw [← rows] at placed distinct
  obtain ⟨all, each⟩ := mem_zip_of_placed usable placed
  -- the id of a row is its place, where its key is
  have at_place : ∀ row ∈ albums', ∀ key, RowAt (albums'.map Album.key) key row.album_id →
      row.key = key := by
    rintro row member key ⟨i, id_eq, there⟩
    obtain ⟨j, inside, rfl⟩ := List.getElem_of_mem member
    have numbered := takes'.numbered j albums'[j] (List.getElem?_eq_getElem inside)
    have same : j = i := by omega
    subst same
    simpa [inside] using there
  refine ⟨_, created, ⟨?_, ?_, ?_⟩⟩
  · intro doc member
    obtain ⟨id, there⟩ := all doc member
    obtain ⟨key, -, i, rfl, at_i⟩ := each doc id there
    rw [List.getElem?_map, Option.map_eq_some_iff] at at_i
    obtain ⟨row, row_at, -⟩ := at_i
    have numbered := takes'.numbered i row row_at
    exact ⟨row, by simpa [takes'.has_albums] using List.mem_of_getElem? row_at,
      numbered ▸ there⟩
  · rintro doc row ⟨member, there⟩
    rw [takes'.has_albums, Option.getD_some] at member
    obtain ⟨key, key_of, placed_at⟩ := each doc row.album_id there
    rw [key_of, at_place row member key placed_at]
  · intro row member other member'
    rw [takes'.has_albums, Option.getD_some] at member member'
    obtain ⟨i, inside, rfl⟩ := List.getElem_of_mem member
    obtain ⟨j, inside', rfl⟩ := List.getElem_of_mem member'
    rw [takes'.numbered i _ (List.getElem?_eq_getElem inside),
      takes'.numbered j _ (List.getElem?_eq_getElem inside')]
    constructor
    · intro same
      have same : i = j := by omega
      subst same
      rfl
    · intro same
      have same_place : (⟨i, by simpa⟩ : Fin (albums'.map Album.key).length) = ⟨j, by simpa⟩ :=
        distinct.get_inj_iff.mp (by simpa using same)
      rw [Fin.mk.inj same_place]

theorem OwnAlbums.alike {docs' : List Doc} {made made' : Db × List Nat}
    (first : OwnAlbums env docs made) (second : OwnAlbums env docs' made')
    (same : ∀ doc ∈ docs, doc ∈ docs') : AlikeAlbums docs made docs' made' := by
  have same_row : ∀ doc row row', AlbumIs docs made doc row → AlbumIs docs' made' doc row' →
      row.key = row'.key := by
    intro doc row row' of_doc of_doc'
    have key_of := first.has_key doc row of_doc
    rw [second.has_key doc row' of_doc'] at key_of
    exact (Option.some.inj key_of).symm
  refine ⟨?_, ?_, same_row⟩
  · intro doc member
    exact ⟨first.grouped doc member, second.grouped doc (same doc member)⟩
  · intro doc row row' of_doc of_doc' other orow orow' of_other of_other'
    rw [first.one_row row of_doc.1 orow of_other.1, second.one_row row' of_doc'.1 orow' of_other'.1,
      same_row doc row row' of_doc of_doc', same_row other orow orow' of_other of_other']

theorem albumKey_of_usable {key : AlbumKey} (usable : usableKey env doc = some key) :
    albumKey env doc = some key := (Option.filter_eq_some_iff.mp usable).1

/-- The first document makes an album with its own key, and a document which comes behind it
and finds this key is put there. -/
theorem first_album (takes : TakesAlbums db []) {keys : List AlbumKey} {key : AlbumKey}
    {other : Doc} {ids : List Nat} {rest : List Doc}
    (usable : (doc :: rest).mapM (usableKey env) = some (key :: keys))
    (placed : (placeAll (key :: keys) []).2 = ids) (there : (other, 1) ∈ (doc :: rest).zip ids) :
    ∃ made row, createAlbums env (doc :: rest) db = some made ∧
      AlbumIs (doc :: rest) made other row ∧ row.key = key := by
  have created := createAlbums_spec env takes (doc :: rest)
  rw [usable] at created
  obtain ⟨db', albums', takes', created, rows⟩ := created
  rw [List.map_nil, placed] at created
  obtain ⟨behind, all⟩ := placeAll_extends keys (place [] key).1
  have firsts : albums'.map Album.key = key :: behind := by
    rw [rows, placeAll]
    exact all.symm
  cases albums' with
  | nil => cases firsts
  | cons row later =>
      have numbered := takes'.numbered 0 row rfl
      refine ⟨_, row, created, ⟨by simp [takes'.has_albums], ?_⟩, (List.cons.inj firsts).1⟩
      rw [numbered]
      exact there

theorem createAlbums_none (start : TakesAlbums db []) {order : List Doc} (perm : order.Perm docs)
    (fails : ∃ doc ∈ docs, usableKey env doc = none) : createAlbums env order db = none := by
  obtain ⟨doc, member, failed⟩ := fails
  have created := createAlbums_spec env start order
  rwa [MapM.eq_none_iff.mpr ⟨doc, perm.mem_iff.mpr member, failed⟩] at created

theorem createAlbums_uniform (start : TakesAlbums db []) (uniform : DiscsUniform env docs)
    (usable : ∀ doc ∈ docs, usableKey env doc ≠ none) {order : List Doc}
    (perm : order.Perm docs) :
    ∃ made, createAlbums env order db = some made ∧ OwnAlbums env order made := by
  obtain ⟨keys, keys_of⟩ := MapM.exists_eq_some order
    fun doc member => usable doc (perm.mem_iff.mp member)
  refine createAlbums_own start keys_of ?_
  intro key member row member' finds
  obtain ⟨doc, inside, key_of⟩ := MapM.mem_of_eq_some keys_of member
  obtain ⟨other, inside', row_of⟩ := MapM.mem_of_eq_some keys_of member'
  simp only [AlbumKey.findsKey, AlbumKey.finds, decide_eq_true_eq] at finds
  obtain ⟨title, folder, disc⟩ := finds
  have disc : row.albtdisc = key.albtdisc := by
    rcases disc with unset | same
    · exact uniform doc (perm.mem_iff.mp inside) other (perm.mem_iff.mp inside') key row
        (albumKey_of_usable key_of) (albumKey_of_usable row_of) title folder unset
    · exact same
  exact congr (congr (congrArg AlbumKey.mk title) folder) disc

/-- A track without a disc number which finds the album of another one is put there if it comes
second, and makes an album of its own if it comes first. -/
theorem mixed_not_alike (start : TakesAlbums db []) {other : Doc} {rest : List Doc}
    {key okey : AlbumKey} {keys : List AlbumKey} (key_of : usableKey env doc = some key)
    (okey_of : usableKey env other = some okey) (keys_of : rest.mapM (usableKey env) = some keys)
    (finds : key.findsKey okey = true) (differ : okey ≠ key) :
    ¬ AlikePasses env db (doc :: other :: rest) (other :: doc :: rest) := by
  have first_keys : (doc :: other :: rest).mapM (usableKey env) = some (key :: okey :: keys) := by
    simp [List.mapM_cons, key_of, okey_of, keys_of]
  have second_keys : (other :: doc :: rest).mapM (usableKey env) = some (okey :: key :: keys) := by
    simp [List.mapM_cons, key_of, okey_of, keys_of]
  obtain ⟨made, row, created, is_row, has_key⟩ := first_album start first_keys rfl
    List.mem_cons_self
  have joined : place [okey] key = ([okey], 1) := by simp [place, finds]
  have both_first : (doc, 1) ∈ (other :: doc :: rest).zip (placeAll (okey :: key :: keys) []).2 := by
    have placed : place [] okey = ([okey], 1) := rfl
    simp [placeAll, placed, joined]
  obtain ⟨made', row', created', is_row', has_key'⟩ := first_album start second_keys rfl both_first
  unfold AlikePasses
  rw [created, created']
  intro alike
  have same := alike.same_row doc row row' is_row is_row'
  rw [has_key, has_key'] at same
  exact differ same.symm

end Passes

section DocumentLoop

variable {env : Env} {db db' : Db} {albums : List Album}

/-- Nothing has changed about the albums but the artists of their tracks. -/
structure KeepsAlbums (albums : List Album) (db db' : Db) : Prop where
  albums_kept : ∃ albums', TakesAlbums db' albums' ∧ albums'.map Album.key = albums.map Album.key
  tracks_kept : db'.tracks = db.tracks

theorem insertValue_keeps (takes : TakesAlbums db albums) {docidx rowid : Nat} {tb value : Str}
    (inserted : insertValue docidx tb db value = some (db', rowid)) :
    TakesAlbums db' albums ∧ db'.tracks = db.tracks := by
  obtain ⟨values, values', rows, -, -, -, -, rfl⟩ := insertValue_spec inserted
  have has_artists := isSome_update_values takes.has_artists tb values'
  exact ⟨⟨takes.has_albums, takes.numbered, has_artists⟩, rfl⟩

theorem insertValues_keeps (takes : TakesAlbums db albums) {docidx : Nat} {tb : Str}
    {texts : List Str} {rowids : List Nat}
    (inserted : insertValues docidx tb texts db = some (db', rowids)) :
    TakesAlbums db' albums ∧ db'.tracks = db.tracks := by
  induction texts generalizing db rowids with
  | nil =>
      cases inserted
      exact ⟨takes, rfl⟩
  | cons value rest ih =>
      simp only [insertValues, bind, Option.bind_eq_some_iff] at inserted
      obtain ⟨⟨between, rowid⟩, first, ⟨last, later⟩, behind, same⟩ := inserted
      cases same
      obtain ⟨takes', tracks⟩ := insertValue_keeps takes first
      obtain ⟨takes'', tracks'⟩ := ih takes' behind
      exact ⟨takes'', tracks'.trans tracks⟩

theorem insertTag_keeps (takes : TakesAlbums db albums) {docidx album_id : Nat} {doc : Doc}
    {tag : Str × Str} (inserted : insertTag docidx album_id doc db tag = some db') :
    KeepsAlbums albums db db' := by
  simp only [insertTag, bind, Option.bind_eq_some_iff] at inserted
  obtain ⟨⟨between, rowids⟩, first, done⟩ := inserted
  obtain ⟨takes', tracks⟩ := insertValues_keeps takes first
  dsimp only at done
  split at done
  · cases done
    refine ⟨⟨albums.map _, ⟨by rw [updatealbartistlist, takes'.has_albums, Option.map_some], ?_,
      takes'.has_artists⟩, ?_⟩, tracks⟩
    · intro i row there
      rw [List.getElem?_map, Option.map_eq_some_iff] at there
      obtain ⟨old, old_at, rfl⟩ := there
      have numbered := takes.numbered i old old_at
      split
      · exact numbered
      · exact numbered
    · rw [List.map_map]
      refine List.map_congr_left fun row _ => ?_
      dsimp only [Function.comp_apply]
      split
      · rfl
      · rfl
  · cases done
    exact ⟨⟨albums, takes', rfl⟩, tracks⟩

theorem insertTags_keeps (takes : TakesAlbums db albums) {docidx album_id : Nat} {doc : Doc}
    {tags : List (Str × Str)}
    (inserted : tags.foldlM (insertTag docidx album_id doc) db = some db') :
    KeepsAlbums albums db db' := by
  induction tags generalizing db albums with
  | nil =>
      cases inserted
      exact ⟨⟨albums, takes, rfl⟩, rfl⟩
  | cons tag rest ih =>
      simp only [List.foldlM_cons, bind, Option.bind_eq_some_iff] at inserted
      obtain ⟨between, first, behind⟩ := inserted
      obtain ⟨⟨albums', takes', same⟩, tracks⟩ := insertTag_keeps takes first
      obtain ⟨⟨albums'', takes'', same'⟩, tracks'⟩ := ih takes' behind
      exact ⟨⟨albums'', takes'', same'.trans same⟩, tracks'.trans tracks⟩

/-- The document loop makes the albums as `createAlbums` does for the tracks among the
documents, and notes the album of each of them. -/
theorem addDocs_albums (takes : TakesAlbums db albums) {tags : Tags} {docs : List Doc}
    {docidx : Nat} {tracks : List Track} (has_tracks : db.tracks = some tracks)
    (added : addDocs env tags docs docidx db = some db') :
    ∃ keys albums' tracks', (docs.filter isTrack).mapM (usableKey env) = some keys ∧
      TakesAlbums db' albums' ∧ db'.tracks = some (tracks ++ tracks') ∧
      albums'.map Album.key = (placeAll keys (albums.map Album.key)).1 ∧
      tracks'.map Track.album_id = (placeAll keys (albums.map Album.key)).2 := by
  induction docs generalizing db albums docidx tracks with
  | nil =>
      cases added
      exact ⟨[], albums, [], rfl, takes, by simpa using has_tracks, rfl, rfl⟩
  | cons doc rest ih =>
      simp only [addDocs, Option.bind_eq_some_iff] at added
      obtain ⟨between, first, behind⟩ := added
      by_cases track : isTrack doc = true
      · simp only [addDoc, if_pos track, bind, Option.bind_eq_some_iff] at first
        obtain ⟨⟨made, album_id⟩, created, tagged, inserted, last⟩ := first
        dsimp only at inserted last
        have one := maybecreatealbum_spec env takes doc
        cases usable : usableKey env doc with
        | none =>
            rw [usable] at one
            cases one.symm.trans created
        | some key =>
            rw [usable] at one
            obtain ⟨db₁, albums₁, takes₁, tracks₁, created₁, placed₁⟩ := one
            cases created₁.symm.trans created
            obtain ⟨⟨albums₂, takes₂, same₂⟩, tracks₂⟩ := insertTags_keeps takes₁ inserted
            simp only [Option.ite_none_left_eq_some, Option.bind_eq_some_iff] at last
            obtain ⟨-, had, had_tracks, same⟩ := last
            cases same
            rw [tracks₂, tracks₁, has_tracks, Option.some.injEq] at had_tracks
            subst had_tracks
            obtain ⟨keys, albums', tracks', keys_of, takes', has_tracks', rows, ids⟩ :=
              ih (takes₂.withTracks _) rfl behind
            rw [same₂, placed₁] at rows ids
            refine ⟨key :: keys, albums', _ :: tracks', ?_, takes', by simpa using has_tracks',
              rows, by simpa [placeAll] using ids⟩
            simp [track, List.mapM_cons, usable, keys_of]
      · simp only [addDoc, if_neg track, Option.some.injEq] at first
        subst first
        rw [List.filter_cons_of_neg track]
        exact ih takes has_tracks behind

end DocumentLoop

/-- The albums do not depend on the order of the documents exactly when a track without a disc
number shares its title and its folder only with tracks like it, or when some track makes every
pass fail. -/
theorem alikePasses_iff (env : Env) (db : Db) (start : TakesAlbums db []) (docs : List Doc) :
    (∀ first second, first.Perm docs → second.Perm docs → AlikePasses env db first second) ↔
      (∃ doc ∈ docs, usableKey env doc = none) ∨ DiscsUniform env docs := by
  constructor
  · intro alike
    by_contra neither
    rw [not_or] at neither
    obtain ⟨usable, mixed⟩ := neither
    unfold DiscsUniform at mixed
    push Not at mixed usable
    obtain ⟨doc, member, other, member', key, okey, key_of, okey_of, title, folder, unset,
      differ⟩ := mixed
    have apart : other ≠ doc := by
      rintro rfl
      rw [key_of, Option.some.injEq] at okey_of
      exact differ (okey_of ▸ rfl)
    -- the two come first, in either order
    obtain ⟨rest, rest_perm⟩ : ∃ rest, (doc :: other :: rest).Perm docs := by
      refine ⟨(docs.erase doc).erase other, ?_⟩
      have second := (List.perm_cons_erase ((List.mem_erase_of_ne apart).mpr member')).symm
      exact (second.cons doc).trans (List.perm_cons_erase member).symm
    have swapped : (other :: doc :: rest).Perm docs :=
      (List.Perm.swap doc other rest).trans rest_perm
    obtain ⟨keys, keys_of⟩ := MapM.exists_eq_some rest
      fun inside there => usable inside (rest_perm.subset (by simp [there]))
    have usable_of : ∀ inside ∈ docs, ∀ found, albumKey env inside = some found →
        usableKey env inside = some found := by
      intro inside there found found_of
      obtain ⟨kept, kept_of⟩ := Option.ne_none_iff_exists'.mp (usable inside there)
      rw [albumKey_of_usable kept_of, Option.some.injEq] at found_of
      exact found_of ▸ kept_of
    have finds : key.findsKey okey = true := by
      simp [AlbumKey.findsKey, AlbumKey.finds, title, folder, unset]
    exact mixed_not_alike start (usable_of doc member key key_of)
      (usable_of other member' okey okey_of) keys_of finds
      (fun same => differ (congrArg AlbumKey.albtdisc same)) (alike _ _ rest_perm swapped)
  · intro condition first second first_perm second_perm
    unfold AlikePasses
    by_cases fails : ∃ doc ∈ docs, usableKey env doc = none
    · rw [createAlbums_none start first_perm fails, createAlbums_none start second_perm fails]
      trivial
    · have uniform := condition.resolve_left fails
      push Not at fails
      obtain ⟨made, created, owns⟩ := createAlbums_uniform start uniform fails first_perm
      obtain ⟨made', created', owns'⟩ := createAlbums_uniform start uniform fails second_perm
      rw [created, created']
      exact owns.alike owns' fun doc member =>
        second_perm.mem_iff.mpr (first_perm.mem_iff.mp member)

/-- A track of an album without a disc number. -/
def loose : Doc := docAt "audio/flac" "/m/a/1.flac" [("album", "A")]

/-- A track of this album which has one. -/
def onDisc : Doc := docAt "audio/flac" "/m/a/2.flac" [("album", "A"), ("discnumber", "1")]

/-- The tables before the documents are read. -/
def noRows : Db where
  albums := some []
  tracks := some []
  values _ := some []
  junctions _ := some []

theorem noRows_takesAlbums : TakesAlbums noRows [] := ⟨rfl, by simp, rfl⟩

theorem usableKey_loose :
    usableKey (bareEnv []) loose = some ⟨"A".toList, "/m/a/".toList, none⟩ := by decide

theorem usableKey_onDisc :
    usableKey (bareEnv []) onDisc = some ⟨"A".toList, "/m/a/".toList, some 1⟩ := by decide

/-- Another track of the disc. -/
def sameDisc : Doc := docAt "audio/flac" "/m/a/3.flac" [("album", "A"), ("discnumber", "1")]

theorem discsUniform_onDisc : DiscsUniform (bareEnv []) [onDisc, sameDisc] := by
  intro doc member other member' key okey key_of okey_of _ _ unset
  have key_eq : albumKey (bareEnv []) doc = some ⟨"A".toList, "/m/a/".toList, some 1⟩ := by
    rcases List.mem_pair.mp member with rfl | rfl
    · decide
    · decide
  rw [key_of, Option.some.injEq] at key_eq
  rw [key_eq] at unset
  cases unset

/-- Tracks of one disc are grouped alike in both orders. -/
theorem alikePasses_onDisc :
    AlikePasses (bareEnv []) noRows [onDisc, sameDisc] [sameDisc, onDisc] :=
  (alikePasses_iff (bareEnv []) noRows noRows_takesAlbums [onDisc, sameDisc]).mpr
    (.inr discsUniform_onDisc) _ _ (.refl _) (.swap onDisc sameDisc [])

/-- The two tracks share an album only if the one which is on a disc comes first. -/
theorem not_alikePasses_loose :
    ¬ AlikePasses (bareEnv []) noRows [loose, onDisc] [onDisc, loose] :=
  mixed_not_alike noRows_takesAlbums usableKey_loose usableKey_onDisc rfl (by decide) (by decide)

end Upmpdcli.Uprcl
