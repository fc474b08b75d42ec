import Mathlib.Data.List.Infix
import Upmpdcli.Cdplugins.Uprcl.TagsCount

set_option autoImplicit false

/- The Tag View of a folder: the tree of the tags, for the tracks below the folder. -/
namespace Upmpdcli.Uprcl

section Like

variable {pattern text more : Str} {c : Char}

theorem like_cons (c : Char) (pattern text : Str) : like (c :: pattern) text =
    if c = '%' then text.tails.any (like pattern)
    else
      match text with
      | [] => false
      | d :: text => (c = '_' ∨ c.toLower = d.toLower) && like pattern text :=
  (like.eq_def (c :: pattern) text).trans rfl

theorem like_percent (text : Str) : like ['%'] text = true := by
  rw [like_cons, if_pos rfl, List.any_eq_true]
  exact ⟨[], (List.mem_tails _ _).mpr List.nil_suffix, rfl⟩

/-- A pattern matches what it is a prefix of. -/
theorem like_of_prefix (pattern more : Str) :
    like (pattern ++ ['%']) (pattern ++ more) = true := by
  induction pattern with
  | nil => exact like_percent more
  | cons c rest ih =>
      rw [List.cons_append, List.cons_append, like_cons]
      split
      · rw [List.any_eq_true]
        exact ⟨rest ++ more, (List.mem_tails _ _).mpr (List.suffix_cons c _), ih⟩
      · simp [ih]

theorem like_of_isPrefix (below : pattern <+: text) : like (pattern ++ ['%']) text = true := by
  obtain ⟨more, rfl⟩ := below
  exact like_of_prefix pattern more

/-- What is matched up to its end is matched with more behind it. -/
theorem like_append (matched : like (pattern ++ ['%']) text = true) (more : Str) :
    like (pattern ++ ['%']) (text ++ more) = true := by
  induction pattern generalizing text with
  | nil => exact like_percent _
  | cons c rest ih =>
      rw [List.cons_append, like_cons] at matched ⊢
      split at matched
      · rename_i percent
        rw [if_pos percent]
        rw [List.any_eq_true] at matched ⊢
        obtain ⟨tail, suffix, matched⟩ := matched
        obtain ⟨front, rfl⟩ := (List.mem_tails _ _).mp suffix
        refine ⟨tail ++ more, (List.mem_tails _ _).mpr ⟨front, ?_⟩, ih matched⟩
        rw [List.append_assoc]
      · rename_i other
        rw [if_neg other]
        cases text with
        | nil => cases matched
        | cons d rest' =>
            rw [Bool.and_eq_true] at matched
            rw [List.cons_append]
            dsimp only
            rw [Bool.and_eq_true]
            exact ⟨matched.1, ih matched.2⟩

theorem eq_slash_of_toLower (same : '/'.toLower = c.toLower) : c = '/' := by
  by_contra other
  have lower : '/'.toLower = '/' := by decide
  rw [lower] at same
  unfold Char.toLower at same
  split at same
  · rename_i upper
    have value := congrArg (fun d : Char => d.val.toNat) same
    have above : 'A'.val.toNat ≤ c.val.toNat := upper.1
    have below : c.val.toNat ≤ 'Z'.val.toNat := upper.2
    rw [UInt32.toNat_add] at value
    have letters : 'A'.val.toNat = 65 ∧ 'Z'.val.toNat = 90 ∧ '/'.val.toNat = 47 ∧
        ('a'.val - 'A'.val).toNat = 32 := by decide
    omega
  · exact other same.symm

/-- The slash of a pattern has to be in what it matches. -/
theorem slash_of_like (matched : like (pattern ++ ['/', '%']) text = true) : '/' ∈ text := by
  induction pattern generalizing text with
  | nil =>
      rw [List.nil_append, like_cons, if_neg (by decide)] at matched
      cases text with
      | nil => cases matched
      | cons d rest =>
          rw [Bool.and_eq_true, decide_eq_true_eq, or_iff_right (by decide)] at matched
          rw [eq_slash_of_toLower matched.1]
          exact List.mem_cons_self
  | cons c rest ih =>
      rw [List.cons_append, like_cons] at matched
      split at matched
      · rw [List.any_eq_true] at matched
        obtain ⟨tail, suffix, matched⟩ := matched
        exact ((List.mem_tails _ _).mp suffix).subset (ih matched)
      · cases text with
        | nil => cases matched
        | cons d rest' =>
            rw [Bool.and_eq_true] at matched
            exact List.mem_cons_of_mem d (ih matched.2)

/-- What is matched by the path of a directory is matched without the name at its end. -/
theorem like_folder {name : Str} (no_slash : '/' ∉ name)
    (matched : like (pattern ++ ['/', '%']) (text ++ name) = true) :
    like (pattern ++ ['/', '%']) text = true := by
  induction pattern generalizing text with
  | nil =>
      cases text with
      | nil => exact absurd (slash_of_like matched) no_slash
      | cons d rest =>
          rw [List.nil_append, like_cons, if_neg (by decide)] at matched ⊢
          rw [List.cons_append] at matched
          rw [Bool.and_eq_true] at matched ⊢
          exact ⟨matched.1, like_percent rest⟩
  | cons c rest ih =>
      cases text with
      | nil => exact absurd (slash_of_like matched) no_slash
      | cons d rest' =>
          rw [List.cons_append, like_cons] at matched ⊢
          split at matched
          · rename_i percent
            rw [if_pos percent]
            rw [List.any_eq_true] at matched ⊢
            obtain ⟨tail, suffix, matched⟩ := matched
            obtain ⟨front, same⟩ := (List.mem_tails _ _).mp suffix
            rcases List.append_eq_append_iff.mp same with ⟨behind, text_eq, rfl⟩ | ⟨inner, -, rfl⟩
            · exact ⟨behind, (List.mem_tails _ _).mpr ⟨front, text_eq.symm⟩, ih matched⟩
            · exact absurd (List.mem_append_right inner (slash_of_like matched)) no_slash
          · rename_i other
            rw [if_neg other]
            rw [List.cons_append] at matched
            dsimp only at matched ⊢
            rw [Bool.and_eq_true] at matched ⊢
            exact ⟨matched.1, ih matched.2⟩

end Like

/-- The path of the file of a document. -/
def filePath (env : Env) (doc : Doc) : Str := Utf8.decodeReplace (docpath env doc)

/-- The folder of a document. -/
def fileFolder (env : Env) (doc : Doc) : Option Str := (docfolder env doc).map Utf8.decodeReplace

namespace TagTree

variable (t : TagTree)

section View

/-- The ids of the albums with a part below a folder. -/
def albidsBelow (folder : Str) : List Nat :=
  ((t.albums.filter fun alb => like (folder ++ ['%']) alb.albfolder).filterMap Album.albalb).dedup

/-- `_albcntforfolder`. -/
def albcntforfolder (folder : Str) : Nat :=
  if folder = [] then (t.albums.filter fun alb => alb.albtdisc = none).length
  else (t.albidsBelow folder).length

/-- The rows which `_direntriesforalbums` selects for a folder. -/
def albumsBelow (folder : Str) : List Album :=
  if folder = [] then t.albums.filter fun alb => alb.albtdisc = none
  else t.albums.filter fun alb => alb.album_id ∈ t.albidsBelow folder

/-- `rootentries`. -/
def rootentries (pid folder : Str) : Option (List Entry) := do
  let rows ← t.rowsBelow folder
  let subqs ← t.subtreetags { folder } t.tags.indextags
  let tags ← subqs.mapM fun tt =>
    (t.tags.tagdisplaytag.lookup tt).map (direntry (pid ++ "=".toList ++ tt) pid)
  let albums := Text.str (t.albcntforfolder folder) ++ " albums".toList
  let items := Text.str rows.length ++ " items".toList
  return direntry (pid ++ "albums".toList) pid albums ::
    direntry (pid ++ "items".toList) pid items :: tags

end View

section Specification

/-- The file of a track is below a directory. -/
def below (path : Str) (row : Track) : Bool :=
  t.rcldocs[row.docidx]?.any fun doc => path.isPrefixOf (filePath t.env doc)

/-- The pattern of a folder matches the folder of a track. -/
def FolderMatches (folder : Str) (row : Track) : Prop :=
  ∃ doc ∈ t.rcldocs[row.docidx]?, ∃ found ∈ fileFolder t.env doc,
    like (folder ++ ['%']) found = true

/-- What is selected with a folder is what belongs to the tracks below a directory. -/
structure Selects (folder path : Str) : Prop where
  tracks : ∀ chosen, t.selectRows { folder, chosen } =
    (t.selectRows { chosen }).map fun rows => rows.filter (t.below path)
  items : (t.itemsStmt folder).rows = (t.tracks.filter (t.below path)).map Track.docidx
  albums : ∀ albid, albid ∈ (t.albumsBelow folder).map Album.album_id ↔
    ∃ row ∈ t.tracks, t.below path row = true ∧ t.albumOf row = some albid
  counts : ∀ pid entries, t.rootentries pid folder = some entries →
    entries.take 2 =
      [direntry (pid ++ "albums".toList) pid
          (Text.str ((t.tracks.filter (t.below path)).filterMap t.albumOf).dedup.length ++
            " albums".toList),
        direntry (pid ++ "items".toList) pid
          (Text.str (t.tracks.filter (t.below path)).length ++ " items".toList)]

/-- The pattern of a folder tells which tracks are below a directory: it matches the addresses of
these, and the folders of the parts of the albums which they are shown in. -/
structure Fits (folder path : Str) : Prop where
  addresses : ∀ doc ∈ t.rcldocs, isTrack doc →
    (like (folder ++ ['%']) (trackPath doc) = true ↔ path <+: filePath t.env doc)
  folders : ∀ albid, (∃ row ∈ t.tracks, t.FolderMatches folder row ∧ t.albumOf row = some albid) ↔
    ∃ row ∈ t.tracks, t.below path row = true ∧ t.albumOf row = some albid

/-- Where the files of the tracks are, and which albums they make. -/
structure FilesPlaced : Prop where
  row_of : ∀ i doc, t.rcldocs[i]? = some doc → isTrack doc → ∃ row ∈ t.tracks, row.docidx = i
  path_of : ∀ row ∈ t.tracks, ∃ doc, t.rcldocs[row.docidx]? = some doc ∧ isTrack doc ∧
    row.path = trackPath doc
  folder_of : ∀ row ∈ t.tracks, ∃ doc, t.rcldocs[row.docidx]? = some doc ∧
    ∃ alb ∈ t.albums, alb.album_id = row.album_id ∧ fileFolder t.env doc = some alb.albfolder
  track_of : ∀ alb ∈ t.albums, ∃ row ∈ t.tracks, ∃ own ∈ t.albums,
    own.album_id = row.album_id ∧ own.albfolder = alb.albfolder ∧ own.albalb = alb.albalb

end Specification

section Tracks

variable {t} {folder path : Str} {row : Track}

/-- The tracks with a value, of the tracks which are kept. -/
theorem selectRows_filter (some_folder : folder ≠ [])
    (addresses : ∀ row ∈ t.tracks, like (folder ++ ['%']) row.path = t.below path row)
    (chosen : List (Str × Int)) : t.selectRows { folder, chosen } =
      (t.selectRows { chosen }).map fun rows => rows.filter (t.below path) := by
  have joined : ∀ (chosen : List (Str × Int)) (rows : List Track),
      chosen.foldlM t.joinChoice (rows.filter (t.below path)) =
        (chosen.foldlM t.joinChoice rows).map fun rows => rows.filter (t.below path) := by
    intro chosen
    induction chosen with
    | nil => exact fun _ => rfl
    | cons choice rest ih =>
        intro rows
        rw [List.foldlM_cons, List.foldlM_cons]
        unfold joinChoice
        cases t.junction choice.1 with
        | none => rfl
        | some pairs =>
            simp only [Option.map_some, Option.bind_eq_bind, Option.bind_some]
            rw [Junction.withValue_filter]
            exact ih _
  unfold selectRows rowsBelow
  cases has_table : t.table with
  | none => rfl
  | some rows =>
      have rows_eq : t.tracks = rows := by rw [t.tracks_eq, has_table, Option.getD_some]
      simp only [Option.map_some, bind, Option.bind_some]
      rw [if_neg some_folder, if_pos trivial]
      have same : (rows.filter fun row => like (folder ++ ['%']) row.path) =
          rows.filter (t.below path) :=
        List.filter_congr fun row member => addresses row (rows_eq ▸ member)
      rw [same]
      split
      · exact joined chosen rows
      · rfl

theorem below_iff {doc : Doc} (there : t.rcldocs[row.docidx]? = some doc) :
    t.below path row = true ↔ path <+: filePath t.env doc := by
  rw [below, there, Option.any_some, List.isPrefixOf_iff_prefix]

/-- The addresses fit when they do so for the rows of the tracks. -/
theorem addresses_iff (placed : t.FilesPlaced) :
    (∀ doc ∈ t.rcldocs, isTrack doc →
        (like (folder ++ ['%']) (trackPath doc) = true ↔ path <+: filePath t.env doc)) ↔
      ∀ row ∈ t.tracks, like (folder ++ ['%']) row.path = t.below path row := by
  constructor
  · intro addresses row member
    obtain ⟨doc, there, track, same⟩ := placed.path_of row member
    rw [Bool.eq_iff_iff, same, below_iff there]
    exact addresses doc (List.mem_of_getElem? there) track
  · intro rows doc member track
    obtain ⟨i, there⟩ := List.mem_iff_getElem?.mp member
    obtain ⟨row, inside, rfl⟩ := placed.row_of i doc there track
    obtain ⟨own, own_there, -, same⟩ := placed.path_of row inside
    rw [there, Option.some.injEq] at own_there
    subst own_there
    rw [← same, rows row inside, below_iff there]

/-- The albums of a folder are those of the tracks whose folders its pattern matches. -/
theorem mem_albidsBelow (placed : t.FilesPlaced) {albid : Nat} :
    albid ∈ t.albidsBelow folder ↔
      ∃ row ∈ t.tracks, t.FolderMatches folder row ∧ t.albumOf row = some albid := by
  rw [albidsBelow, List.mem_dedup, List.mem_filterMap]
  constructor
  · rintro ⟨alb, matched, shown⟩
    rw [List.mem_filter] at matched
    obtain ⟨row, member, own, own_inside, own_id, same_folder, same_album⟩ :=
      placed.track_of alb matched.1
    obtain ⟨doc, there, alb', inside', id', folder_eq⟩ := placed.folder_of row member
    have same := eq_of_album_id t.distinct inside' own_inside (id'.trans own_id.symm)
    obtain ⟨alb'', inside'', id'', top, -, -, points, as_top⟩ := albumOf_spec member
    have same' := eq_of_album_id t.distinct inside'' own_inside (id''.trans own_id.symm)
    refine ⟨row, member, ⟨doc, there, alb'.albfolder, folder_eq, ?_⟩, ?_⟩
    · rw [same, same_folder]
      exact matched.2
    · rw [as_top, ← points, same', same_album, shown]
  · rintro ⟨row, member, ⟨doc, there, found, has_folder, matched⟩, shown⟩
    obtain ⟨doc', there', alb, inside, id, folder_eq⟩ := placed.folder_of row member
    cases there.symm.trans there'
    cases has_folder.symm.trans folder_eq
    obtain ⟨alb', inside', id', top, -, -, points, as_top⟩ := albumOf_spec member
    have same := eq_of_album_id t.distinct inside' inside (id'.trans id.symm)
    refine ⟨alb, List.mem_filter.mpr ⟨inside, matched⟩, ?_⟩
    rw [← same, points, ← as_top, shown]

theorem mem_albumsBelow (some_folder : folder ≠ []) {albid : Nat} :
    albid ∈ (t.albumsBelow folder).map Album.album_id ↔ albid ∈ t.albidsBelow folder := by
  rw [albumsBelow, if_neg some_folder, List.mem_map]
  constructor
  · rintro ⟨alb, member, rfl⟩
    rw [List.mem_filter, decide_eq_true_eq] at member
    exact member.2
  · intro inside
    have of_album := inside
    rw [albidsBelow, List.mem_dedup, List.mem_filterMap] at of_album
    obtain ⟨alb, matched, shown⟩ := of_album
    obtain ⟨top, top_inside, -, -, points⟩ := t.shown_as alb (List.mem_of_mem_filter matched)
    rw [shown, Option.some.injEq] at points
    subst points
    exact ⟨top, List.mem_filter.mpr ⟨top_inside, decide_eq_true inside⟩, rfl⟩

/-- A track is known by its document. -/
theorem eq_of_map_docidx {rows rows' : List Track}
    (same : rows.map Track.docidx = rows'.map Track.docidx) (inside : rows ⊆ t.tracks)
    (inside' : rows' ⊆ t.tracks) : rows = rows' := by
  induction rows generalizing rows' with
  | nil => exact (List.map_eq_nil_iff.mp same.symm).symm
  | cons row rest ih =>
      cases rows' with
      | nil => cases same
      | cons row' rest' =>
          rw [List.map_cons, List.map_cons, List.cons.injEq] at same
          rw [List.cons_subset] at inside inside'
          rw [List.inj_on_of_nodup_map t.docidxs inside.1 inside'.1 same.1,
            ih same.2 inside.2 inside'.2]

/-- A folder selects what belongs to the tracks below a directory exactly when its pattern tells
them. -/
theorem selects_iff (placed : t.FilesPlaced) (some_folder : folder ≠ []) :
    t.Selects folder path ↔ t.Fits folder path := by
  have listed {albid : Nat} : albid ∈ (t.albumsBelow folder).map Album.album_id ↔
      ∃ row ∈ t.tracks, t.FolderMatches folder row ∧ t.albumOf row = some albid := by
    rw [mem_albumsBelow some_folder, mem_albidsBelow placed]
  constructor
  · intro selects
    refine ⟨(addresses_iff placed).mpr fun row member => ?_, fun albid => ?_⟩
    · have same := selects.items
      rw [Tagged.itemsStmt, if_neg some_folder] at same
      have rows := eq_of_map_docidx same (List.filter_subset_self _) (List.filter_subset_self _)
      rw [Bool.eq_iff_iff]
      have kept := congrArg (row ∈ ·) rows
      simpa [List.mem_filter, member] using kept
    · rw [← listed]
      exact selects.albums albid
  · intro fits
    have addresses := (addresses_iff placed).mp fits.addresses
    have same_rows : (t.tracks.filter fun row => like (folder ++ ['%']) row.path) =
        t.tracks.filter (t.below path) := List.filter_congr addresses
    refine ⟨selectRows_filter some_folder addresses, ?_, fun albid => ?_, fun pid entries found => ?_⟩
    · rw [Tagged.itemsStmt, if_neg some_folder, same_rows]
    · rw [listed]
      exact fits.folders albid
    · simp only [rootentries, bind, Option.bind_eq_some_iff] at found
      obtain ⟨rows, has_rows, subqs, -, tags, -, same⟩ := found
      cases same
      have rows_eq : rows = t.tracks.filter (t.below path) := by
        obtain ⟨stored, has_table, same⟩ := Option.map_eq_some_iff.mp has_rows
        rw [← same, if_neg some_folder, ← same_rows, t.tracks_eq, has_table, Option.getD_some]
      have albums : t.albcntforfolder folder =
          ((t.tracks.filter (t.below path)).filterMap t.albumOf).dedup.length := by
        rw [albcntforfolder, if_neg some_folder]
        have distinct : (t.albidsBelow folder).Nodup := List.nodup_dedup _
        refine List.Perm.length_eq ?_
        rw [List.perm_ext_iff_of_nodup distinct (List.nodup_dedup _)]
        intro albid
        rw [mem_albidsBelow placed, fits.folders, List.mem_dedup, List.mem_filterMap]
        simp only [List.mem_filter, and_assoc]
      rw [rows_eq, albums]
      rfl

end Tracks

end TagTree

end Upmpdcli.Uprcl
