import Mathlib.Data.Char
import Mathlib.Data.List.Lex
import Mathlib.Data.List.Perm.Subperm
import Mathlib.Data.Prod.Lex
import Upmpdcli.Cdplugins.Subsonic.AlbumUtil
import Upmpdcli.Lib.Grouping

set_option autoImplicit false

/- The versions of an album, and the tracks which each of them shows. -/
namespace Upmpdcli.Subsonic.AlbumUtil

namespace Song

/-- The path which tells the versions of an album apart. -/
def base (upper : Str → Str) (song : Song) : Str :=
  get_album_base_path upper (get_dir_from_path song.path)

/-- The place of a song in its album. -/
def place (song : Song) : Int ×ₗ Int := toLex (song.discNumber.getD 0, song.track.getD 0)

/-- The names which the songs are sorted by before anything else. -/
def names (song : Song) : Str ×ₗ Str := toLex (song.artist.getD [], song.album.getD [])

end Song

section Compare

variable {α : Type} [LT α] [DecidableEq α] [DecidableLT α] {left right : α}

theorem compareBy_lt_zero : compareBy left right < 0 ↔ left < right := by
  unfold compareBy
  split
  · rename_i less
    simp [less]
  · rename_i not_less
    split <;> simp [not_less]

theorem compareBy_eq_zero (irrefl : ¬ right < right) : compareBy left right = 0 ↔ left = right := by
  unfold compareBy
  split
  · rename_i less
    have apart : left ≠ right := fun same => irrefl (same ▸ less)
    simp [apart]
  · split
    · rename_i same
      simp [same]
    · rename_i different
      simp [different]

theorem compareBy_str {left right : Str} : compareBy left right = 0 ↔ left = right :=
  compareBy_eq_zero (lt_irrefl right)

theorem compareBy_int {left right : Int} : compareBy left right = 0 ↔ left = right :=
  compareBy_eq_zero (lt_irrefl right)

theorem compareBy_int_le {left right : Int} : compareBy left right ≤ 0 ↔ left ≤ right := by
  rw [Int.le_iff_lt_or_eq, compareBy_lt_zero, compareBy_int, le_iff_lt_or_eq]

end Compare

/-- Comparisons each of which only decides when those before it do not. -/
theorem chain_le_zero (c₁ c₂ c₃ c₄ c₅ : Int) :
    (let cmp := c₁
      let cmp := if cmp = 0 then c₂ else cmp
      let cmp := if cmp = 0 then c₃ else cmp
      let cmp := if cmp = 0 then c₄ else cmp
      if cmp = 0 then c₅ else cmp) ≤ 0 ↔
    (c₁ < 0 ∨ c₁ = 0 ∧ c₂ < 0) ∨ (c₁ = 0 ∧ c₂ = 0) ∧
      (c₃ < 0 ∨ c₃ = 0 ∧ (c₄ < 0 ∨ c₄ = 0 ∧ c₅ ≤ 0)) := by
  dsimp only
  by_cases first : c₁ = 0
  · by_cases second : c₂ = 0
    · by_cases third : c₃ = 0
      · by_cases fourth : c₄ = 0
        · simp [first, second, third, fourth]
        · simp [first, second, third, fourth]
          omega
      · simp [first, second, third]
        omega
    · simp [first, second]
      omega
  · simp [first]
    omega

section Sorted

variable (upper : Str → Str)

/-- The order of the songs of an album: by the names, by the path, and by the place. -/
def Before (a b : Song) : Prop :=
  a.names < b.names ∨ a.names = b.names ∧
    (a.base upper < b.base upper ∨ a.base upper = b.base upper ∧ a.place ≤ b.place)

theorem compare_le_zero_iff (a b : Song) :
    compare_decorated_song (decorate upper a) (decorate upper b) ≤ 0 ↔ Before upper a b := by
  have names : a.names < b.names ↔ a.artist.getD [] < b.artist.getD [] ∨
      a.artist.getD [] = b.artist.getD [] ∧ a.album.getD [] < b.album.getD [] :=
    Prod.Lex.toLex_lt_toLex
  have same : a.names = b.names ↔ a.artist.getD [] = b.artist.getD [] ∧
      a.album.getD [] = b.album.getD [] := Prod.mk_inj
  have place : a.place ≤ b.place ↔ a.discNumber.getD 0 < b.discNumber.getD 0 ∨
      a.discNumber.getD 0 = b.discNumber.getD 0 ∧ a.track.getD 0 ≤ b.track.getD 0 :=
    Prod.Lex.toLex_le_toLex
  unfold Before
  rw [names, same, place]
  refine (chain_le_zero _ _ _ _ _).trans ?_
  simp only [compareBy_lt_zero, compareBy_str, compareBy_int, compareBy_int_le]
  rfl

theorem Before.refl (a : Song) : Before upper a a := .inr ⟨rfl, .inr ⟨rfl, le_refl _⟩⟩

theorem Before.total (a b : Song) : Before upper a b ∨ Before upper b a := by
  unfold Before
  rcases lt_trichotomy a.names b.names with less | same | greater
  · exact .inl (.inl less)
  · rcases lt_trichotomy (a.base upper) (b.base upper) with less | equal | greater
    · exact .inl (.inr ⟨same, .inl less⟩)
    · rcases le_total a.place b.place with le | ge
      · exact .inl (.inr ⟨same, .inr ⟨equal, le⟩⟩)
      · exact .inr (.inr ⟨same.symm, .inr ⟨equal.symm, ge⟩⟩)
    · exact .inr (.inr ⟨same.symm, .inl greater⟩)
  · exact .inr (.inl greater)

theorem Before.trans {a b c : Song} (first : Before upper a b) (second : Before upper b c) :
    Before upper a c := by
  rcases first with less | ⟨same, rest⟩
  · rcases second with less' | ⟨same', -⟩
    · exact .inl (less.trans less')
    · exact .inl (same' ▸ less)
  · rcases second with less' | ⟨same', rest'⟩
    · exact .inl (same ▸ less')
    · refine .inr ⟨same.trans same', ?_⟩
      rcases rest with less | ⟨equal, le⟩
      · rcases rest' with less' | ⟨equal', -⟩
        · exact .inl (less.trans less')
        · exact .inl (equal' ▸ less)
      · rcases rest' with less' | ⟨equal', le'⟩
        · exact .inl (equal ▸ less')
        · exact .inr ⟨equal.trans equal', le.trans le'⟩

/-- The songs of an album as they are sorted. -/
def sorted (songs : List Song) : List Song := (sort_song_list upper songs).2

theorem sorted_eq (songs : List Song) :
    sorted upper songs = songs.mergeSort fun a b =>
      compare_decorated_song (decorate upper a) (decorate upper b) ≤ 0 := by
  unfold sorted sort_song_list
  dsimp only
  rw [← List.map_mergeSort (f := decorate upper)
    (r := fun a b => compare_decorated_song (decorate upper a) (decorate upper b) ≤ 0)
    (fun _ _ _ _ => rfl), List.map_map]
  exact List.map_id _

theorem sorted_perm (songs : List Song) : (sorted upper songs).Perm songs := by
  rw [sorted_eq]
  exact List.mergeSort_perm _ _

theorem sorted_pairwise (songs : List Song) : (sorted upper songs).Pairwise (Before upper) := by
  rw [sorted_eq]
  refine (List.pairwise_mergeSort ?_ ?_ songs).imp fun {a b} before => ?_
  · intro a b c first second
    rw [decide_eq_true_eq, compare_le_zero_iff] at first second ⊢
    exact first.trans upper second
  · intro a b
    rw [Bool.or_eq_true, decide_eq_true_eq, decide_eq_true_eq, compare_le_zero_iff,
      compare_le_zero_iff]
    exact Before.total upper a b
  · rwa [decide_eq_true_eq, compare_le_zero_iff] at before

/-- The paths of the versions. -/
def paths (songs : List Song) : List Str := (sort_song_list upper songs).1.map Prod.fst

theorem paths_spec (songs : List Song) :
    (paths upper songs).Nodup ∧ ∀ path, path ∈ paths upper songs ↔ ∃ song ∈ songs,
      song.base upper = path := by
  obtain ⟨distinct, keys⟩ := @Grouping.keys_foldl_set _ _ _ _ DecoratedSong.path
    (fun (dict : List (Str × List Str)) dec =>
      ((dict.lookup dec.path).getD []).insert dec.song.suffix)
    (songs.map (decorate upper)) [] List.nodup_nil
  refine ⟨distinct, fun path => (keys path).trans ?_⟩
  simp only [List.map_nil, List.not_mem_nil, false_or, List.mem_map, exists_exists_and_eq_and]
  rfl

end Sorted

/-- The songs as tracks, with the numbers from `n` on. -/
def numbered (n : Nat) : List Song → List Entry
  | [] => []
  | song :: rest => .track song n :: numbered (n + 1) rest

theorem numbered_injective {n : Nat} {first second : List Song}
    (same : numbered n first = numbered n second) : first = second := by
  induction first generalizing n second with
  | nil =>
      cases second with
      | nil => rfl
      | cons b others => cases same
  | cons a rest ih =>
      cases second with
      | nil => cases same
      | cons b others =>
          obtain ⟨head, tail⟩ := List.cons.inj same
          obtain ⟨rfl, -⟩ := Entry.track.inj head
          rw [ih tail]

theorem version_not_mem_numbered {n : Nat} {songs : List Song} {v : ItemIdentifier} {k : Nat}
    {codecs : List Str} : Entry.version v k codecs ∉ numbered n songs := by
  induction songs generalizing n with
  | nil => exact List.not_mem_nil
  | cons song rest ih =>
      intro member
      rcases List.mem_cons.mp member with impossible | later
      · cases impossible
      · exact ih later

section Load

variable (upper : Str → Str) {path : Str} {album_version_path : Option Str} {songs : List Song}

/-- The songs of a version. -/
abbrev version (songs : List Song) (path : Str) : List Song :=
  Grouping.group (Song.base upper) songs path

/-- The songs of one path are counted, when the path does not read as missing. -/
theorem loadTracks_version (filled : path ≠ []) (current_base_path : Str)
    (here : current_base_path = [] ∨ current_base_path = path) (track_num : Nat)
    (asked : ∀ song ∈ songs, album_version_path.all (· = song.base upper) = true ↔
      song.base upper = path) :
    loadTracks upper album_version_path current_base_path track_num songs =
      numbered (if current_base_path = [] then 1 else track_num + 1)
        (version upper songs path) := by
  induction songs generalizing current_base_path track_num with
  | nil => rfl
  | cons song rest ih =>
      have others := fun current there n =>
        ih current there n fun s member => asked s (List.mem_cons_of_mem song member)
      by_cases mine : song.base upper = path
      · have shown := (asked song List.mem_cons_self).mpr mine
        have number : (if current_base_path = [] then 1
            else if current_base_path = song.base upper then track_num + 1 else 1) =
            if current_base_path = [] then 1 else track_num + 1 := by
          rcases here with rfl | rfl
          · rfl
          · rw [if_pos mine.symm]
        have members : version upper (song :: rest) path = song :: version upper rest path :=
          List.filter_cons_of_pos (decide_eq_true mine)
        rw [members, numbered]
        refine (if_pos shown).trans (congrArg₂ List.cons (congrArg _ number) ?_)
        refine (others (song.base upper) (.inr mine) _).trans ?_
        rw [if_neg (mine ▸ filled)]
        exact congrArg (fun k => numbered (k + 1) (version upper rest path)) number
      · have hidden := mt (asked song List.mem_cons_self).mp mine
        have members : version upper (song :: rest) path = version upper rest path :=
          List.filter_cons_of_neg (by simpa using mine)
        rw [members]
        exact (if_neg hidden).trans (others current_base_path here track_num)

/-- The songs without a path all get the number 1. -/
theorem loadTracks_without_path (track_num : Nat)
    (without : ∀ song ∈ songs, song.base upper = []) :
    loadTracks upper none [] track_num songs = songs.map fun song => .track song 1 := by
  induction songs generalizing track_num with
  | nil => rfl
  | cons song rest ih =>
      have turn : loadTracks upper none [] track_num (song :: rest) =
          .track song 1 :: loadTracks upper none (song.base upper) 1 rest := rfl
      rw [turn, without song List.mem_cons_self, List.map_cons]
      exact congrArg _ (ih 1 fun s member => without s (List.mem_cons_of_mem song member))

/-- They are numbered as they should when there is at most one. -/
theorem ones_eq_numbered_iff {shown : List Song} :
    (songs.map fun song => Entry.track song 1) = numbered 1 shown ↔
      songs = shown ∧ songs.length ≤ 1 := by
  constructor
  · intro same
    match songs, shown, same with
    | [], [], _ => exact ⟨rfl, Nat.zero_le 1⟩
    | [a], [b], same =>
        obtain ⟨rfl, -⟩ := Entry.track.inj (List.cons.inj same).1
        exact ⟨rfl, le_refl 1⟩
    | _ :: _ :: _, _ :: _ :: _, same =>
        have number := (Entry.track.inj (List.cons.inj (List.cons.inj same).2).1).2
        exact absurd number (by decide)
  · rintro ⟨rfl, few⟩
    match songs, few with
    | [], _ => rfl
    | [_], _ => rfl

end Load

section Open

variable (upper : Str → Str) {server : Str → Option Album} {album : Album} {i : ItemIdentifier}

theorem get_album_tracks_eq (there : server album.id = some album) :
    get_album_tracks upper server album.id =
      some ⟨album, (sort_song_list upper album.songs).1, sorted upper album.songs⟩ := by
  unfold get_album_tracks
  rw [there]
  rfl

theorem load_album_tracks_eq (there : server album.id = some album)
    (album_version_path : Option Str) :
    load_album_tracks upper server album.id album_version_path =
      some (loadTracks upper album_version_path [] 0 (sorted upper album.songs)) := by
  unfold load_album_tracks
  rw [get_album_tracks_eq upper there]
  rfl

/-- The identifier of a version. -/
theorem album_version_to_entry_eq (album : Album) (version_number : Nat) (path : Str)
    (codec_set : List Str) :
    ∃ v, album_version_to_entry album version_number path codec_set =
        some (.version v version_number codec_set) ∧
      v.get .thingValue = some album.id ∧ v.get .albumVersionPathBase64 = some (encode path) := by
  have filled : "lbm".toList ≠ [] ∧ album.id ≠ [] := ⟨by decide, album.some_id⟩
  unfold album_version_to_entry ItemIdentifier.new
  rw [dif_pos filled]
  exact ⟨_, rfl, rfl, rfl⟩

theorem encode_ne_nil {path : Str} (filled : path ≠ []) : encode path ≠ [] := by
  intro empty
  have back := decode_encoded path
  rw [empty] at back
  exact filled (Option.some.inj back).symm

section

variable (there : server album.id = some album) (of_album : i.get .thingValue = some album.id)
include there of_album

/-- Opening a version with a path. -/
theorem handler_of_path {path : Str} (filled : path ≠ [])
    (version_of : i.get .albumVersionPathBase64 = some (encode path)) :
    handler_element_album upper server i =
      some (numbered 1 (version upper (sorted upper album.songs) path)) := by
  have asked : versionPath i = some (some path) := by
    obtain ⟨c, rest, code⟩ := List.exists_cons_of_ne_nil (encode_ne_nil filled)
    unfold versionPath
    rw [version_of, code]
    exact congrArg (Option.map some) (code ▸ decode_encoded path)
  have given : ¬ (some path = none ∨ some path = some []) := by
    rintro (missing | empty)
    · cases missing
    · exact filled (Option.some.inj empty)
  have presented : handler_element_album upper server i = present_album upper server i := by
    unfold handler_element_album
    rw [of_album, asked]
    exact if_neg given
  rw [presented]
  unfold present_album
  rw [of_album, version_of]
  refine (congrArg (Option.bind · _) (decode_encoded path)).trans ?_
  refine (load_album_tracks_eq upper there (some path)).trans (congrArg some ?_)
  refine loadTracks_version upper filled [] (.inl rfl) 0 fun song _ => ?_
  rw [Option.all_some, decide_eq_true_eq, eq_comm]

/-- Opening an album, or a version without a path. -/
theorem handler_unread (unread : versionPath i = some none) :
    handler_element_album upper server i =
      if 1 < (paths upper album.songs).length then
        (sort_song_list upper album.songs).1.zipIdx.mapM fun item =>
          album_version_to_entry album (item.2 + 1) item.1.1 item.1.2
      else present_album upper server i := by
  unfold handler_element_album paths
  rw [of_album, unread, List.length_map]
  simp only [bind, Option.bind_some, true_or, if_true, get_album_tracks_eq upper there,
    AlbumTracks.getAlbumVersionCount]
  rfl

theorem present_album_eq (missing : i.get .albumVersionPathBase64 = none) :
    present_album upper server i =
      some (loadTracks upper none [] 0 (sorted upper album.songs)) := by
  unfold present_album
  rw [of_album, missing]
  exact load_album_tracks_eq upper there none

end

/-- The versions which are listed. -/
theorem versions_listed (album : Album) :
    ∃ versions, ((sort_song_list upper album.songs).1.zipIdx.mapM fun item =>
        album_version_to_entry album (item.2 + 1) item.1.1 item.1.2) = some versions ∧
      List.Forall₂ (fun path entry => ∃ v n codecs, entry = Entry.version v n codecs ∧
          v.get .thingValue = some album.id ∧
          v.get .albumVersionPathBase64 = some (encode path))
        (paths upper album.songs) versions := by
  obtain ⟨versions, listed⟩ := MapM.exists_eq_some (sort_song_list upper album.songs).1.zipIdx
    (f := fun item => album_version_to_entry album (item.2 + 1) item.1.1 item.1.2) (by
      intro item _
      obtain ⟨v, entry, -⟩ := album_version_to_entry_eq album (item.2 + 1) item.1.1 item.1.2
      rw [entry]
      exact Option.some_ne_none _)
  refine ⟨versions, listed, ?_⟩
  have paths_eq : paths upper album.songs =
      (sort_song_list upper album.songs).1.zipIdx.map fun item => item.1.1 := by
    have without := congrArg (List.map Prod.fst)
      (List.zipIdx_map_fst 0 (sort_song_list upper album.songs).1)
    exact (List.map_map.symm.trans without).symm
  rw [paths_eq, List.forall₂_map_left_iff]
  refine (MapM.forall₂_of_eq_some listed).imp fun item entry made => ?_
  obtain ⟨v, same, of_album, path⟩ :=
    album_version_to_entry_eq album (item.2 + 1) item.1.1 item.1.2
  exact ⟨v, item.2 + 1, item.1.2, Option.some.inj (made.symm.trans same), of_album, path⟩

end Open

/-- The songs stand in the order of their discs and tracks. -/
def InOrder (songs : List Song) : Prop := songs.Pairwise fun a b => a.place ≤ b.place

/-- What is shown are these songs, in order and numbered. -/
def Shows (entries : Option (List Entry)) (songs : List Song) : Prop :=
  InOrder songs ∧ entries = some (numbered 1 songs)

/-- A listed version which shows these songs. -/
def Opens (upper : Str → Str) (server : Str → Option Album) (entry : Entry) (songs : List Song) :
    Prop :=
  ∃ v n codecs, entry = .version v n codecs ∧ Shows (handler_element_album upper server v) songs

/-- The album shows each of its songs once, either itself or through one of its versions. -/
def Partitions (upper : Str → Str) (album : Album) : Prop :=
  ∀ server i, server album.id = some album → i.get .thingValue = some album.id →
    i.get .albumVersionPathBase64 = none →
    (∃ shown, Shows (handler_element_album upper server i) shown ∧ shown.Perm album.songs) ∨
    ∃ versions parts, handler_element_album upper server i = some versions ∧
      List.Forall₂ (Opens upper server) versions parts ∧ parts.flatten.Perm album.songs

/-- No path of several songs reads as missing, and the names of the songs of a path do not go
against their places. -/
def VersionsSafe (upper : Str → Str) (songs : List Song) : Prop :=
  (songs.length ≤ 1 ∨ ∀ song ∈ songs, song.base upper ≠ []) ∧
    ∀ a ∈ songs, ∀ b ∈ songs, a.base upper = b.base upper → a.names < b.names →
      a.place ≤ b.place

section Partitions

variable (upper : Str → Str) {songs : List Song} {path : Str}

/-- The songs of a version are in order when their names do not go against it. -/
theorem inOrder_version_iff : InOrder (version upper (sorted upper songs) path) ↔
    ∀ a ∈ songs, ∀ b ∈ songs, a.base upper = path → b.base upper = path → a.names < b.names →
      a.place ≤ b.place := by
  have before : (version upper (sorted upper songs) path).Pairwise (Before upper) :=
    (sorted_pairwise upper songs).filter _
  have member : ∀ a, a ∈ version upper (sorted upper songs) path ↔
      a ∈ songs ∧ a.base upper = path := fun a =>
    Grouping.mem_group.trans (and_congr_left fun _ => (sorted_perm upper songs).mem_iff)
  constructor
  · intro ordered a of_a b of_b here here' less
    have both : (version upper (sorted upper songs) path).Pairwise fun a b =>
        Before upper a b ∧ a.place ≤ b.place := List.pairwise_and_iff.mpr ⟨before, ordered⟩
    rcases Grouping.related_of_pairwise both (fun a => ⟨Before.refl upper a, le_refl _⟩)
        ((member a).mpr ⟨of_a, here⟩) ((member b).mpr ⟨of_b, here'⟩) with
      ⟨-, le⟩ | ⟨less' | ⟨same, -⟩, -⟩
    · exact le
    · exact absurd (less.trans less') (lt_irrefl _)
    · exact absurd (same ▸ less) (lt_irrefl _)
  · intro agree
    refine before.imp_of_mem fun {a b} of_a of_b earlier => ?_
    obtain ⟨of_a, here⟩ := (member a).mp of_a
    obtain ⟨of_b, here'⟩ := (member b).mp of_b
    rcases earlier with less | ⟨-, less | ⟨-, le⟩⟩
    · exact agree a of_a b of_b here here' less
    · exact absurd (here ▸ here' ▸ less) (lt_irrefl _)
    · exact le

/-- When there is one path, its version is the whole album. -/
theorem version_of_one (one : ∀ song ∈ songs, song.base upper = path) :
    version upper (sorted upper songs) path = sorted upper songs :=
  List.filter_eq_self.mpr fun song member =>
    decide_eq_true (one song ((sorted_perm upper songs).mem_iff.mp member))

/-- At most one path. -/
theorem paths_length_le_one_iff : (paths upper songs).length ≤ 1 ↔
    ∃ path, ∀ song ∈ songs, song.base upper = path := by
  obtain ⟨distinct, spec⟩ := paths_spec upper songs
  constructor
  · intro few
    match same : paths upper songs, few with
    | [], _ =>
        refine ⟨[], fun song member => ?_⟩
        have listed := (spec _).mpr ⟨song, member, rfl⟩
        rw [same] at listed
        cases listed
    | [path], _ =>
        refine ⟨path, fun song member => ?_⟩
        have listed := (spec _).mpr ⟨song, member, rfl⟩
        rw [same] at listed
        exact List.mem_singleton.mp listed
  · rintro ⟨path, one⟩
    have within : paths upper songs ⊆ [path] := fun other listed => by
      obtain ⟨song, member, rfl⟩ := (spec other).mp listed
      exact List.mem_singleton.mpr (one song member)
    exact (List.subperm_of_subset distinct within).length_le

/-- The parts of the versions make up the album. -/
theorem versions_perm : ((paths upper songs).map (version upper (sorted upper songs))).flatten.Perm
    songs := by
  obtain ⟨distinct, spec⟩ := paths_spec upper songs
  have covered : ∀ song ∈ sorted upper songs, song.base upper ∈ paths upper songs :=
    fun song member => (spec _).mpr ⟨song, (sorted_perm upper songs).mem_iff.mp member, rfl⟩
  rw [← List.flatMap_def]
  exact (Grouping.flatMap_group_perm distinct covered).trans (sorted_perm upper songs)

theorem loadTracks_tracks (album_version_path : Option Str) (current_base_path : Str)
    (track_num : Nat) {v : ItemIdentifier} {n : Nat} {codecs : List Str} :
    Entry.version v n codecs ∉
      loadTracks upper album_version_path current_base_path track_num songs := by
  induction songs generalizing current_base_path track_num with
  | nil => exact List.not_mem_nil
  | cons song rest ih =>
      unfold loadTracks
      dsimp only
      split
      · intro member
        rcases List.mem_cons.mp member with impossible | later
        · cases impossible
        · exact ih _ _ later
      · exact ih _ _

/-- The songs of an album of one path are shown as they should when there is a path, or one song
at most. -/
theorem one_shown_iff (one : ∀ song ∈ songs, song.base upper = path) :
    (∃ shown, InOrder shown ∧
      loadTracks upper none [] 0 (sorted upper songs) = numbered 1 shown ∧ shown.Perm songs) ↔
    (songs.length ≤ 1 ∨ path ≠ []) ∧ InOrder (sorted upper songs) := by
  have same := sorted_perm upper songs
  by_cases without : path = []
  · have ones : loadTracks upper none [] 0 (sorted upper songs) =
        (sorted upper songs).map fun song => .track song 1 :=
      loadTracks_without_path upper 0 fun song member =>
        (one song (same.mem_iff.mp member)).trans without
    rw [ones, ← same.length_eq]
    constructor
    · rintro ⟨shown, ordered, numbers, -⟩
      obtain ⟨rfl, few⟩ := ones_eq_numbered_iff.mp numbers
      exact ⟨.inl few, ordered⟩
    · rintro ⟨few | path_set, ordered⟩
      · exact ⟨sorted upper songs, ordered, ones_eq_numbered_iff.mpr ⟨rfl, few⟩, same⟩
      · exact absurd without path_set
  · have numbers : loadTracks upper none [] 0 (sorted upper songs) =
        numbered 1 (sorted upper songs) := by
      have asked : ∀ song ∈ sorted upper songs,
          (none : Option Str).all (· = song.base upper) = true ↔ song.base upper = path :=
        fun song member => iff_of_true rfl (one song (same.mem_iff.mp member))
      have counted := loadTracks_version upper without [] (.inl rfl) 0 asked
      rwa [version_of_one upper one] at counted
    rw [numbers]
    constructor
    · rintro ⟨shown, ordered, equal, -⟩
      exact ⟨.inr without, numbered_injective equal ▸ ordered⟩
    · rintro ⟨-, ordered⟩
      exact ⟨sorted upper songs, ordered, rfl, same⟩

end Partitions

section Theorem

variable (upper : Str → Str) {album : Album}

/-- There is an identifier for each album. -/
theorem exists_identifier (album : Album) : ∃ i : ItemIdentifier,
    i.get .thingValue = some album.id ∧ i.get .albumVersionPathBase64 = none := by
  have filled : "lbm".toList ≠ [] ∧ album.id ≠ [] := ⟨by decide, album.some_id⟩
  have made : ∃ i, ItemIdentifier.new "lbm".toList album.id = some i ∧
      i.get .thingValue = some album.id ∧ i.get .albumVersionPathBase64 = none := by
    unfold ItemIdentifier.new
    rw [dif_pos filled]
    exact ⟨_, rfl, rfl, rfl⟩
  obtain ⟨i, -, of_album, missing⟩ := made
  exact ⟨i, of_album, missing⟩

theorem versionPath_missing {i : ItemIdentifier} (missing : i.get .albumVersionPathBase64 = none) :
    versionPath i = some none := by
  unfold versionPath
  rw [missing]

/-- An album of one path. -/
theorem partitions_of_one {path : Str} (one : ∀ song ∈ album.songs, song.base upper = path) :
    Partitions upper album ↔ VersionsSafe upper album.songs := by
  have single : ¬ (paths upper album.songs).length > 1 :=
    Nat.not_lt.mpr ((paths_length_le_one_iff upper).mpr ⟨path, one⟩)
  have opened : ∀ server i, server album.id = some album → i.get .thingValue = some album.id →
      i.get .albumVersionPathBase64 = none → handler_element_album upper server i =
        some (loadTracks upper none [] 0 (sorted upper album.songs)) := by
    intro server i there of_album missing
    rw [handler_unread upper there of_album (versionPath_missing missing), if_neg single]
    exact present_album_eq upper there of_album missing
  have shown_iff : Partitions upper album ↔ ∃ shown, InOrder shown ∧
      loadTracks upper none [] 0 (sorted upper album.songs) = numbered 1 shown ∧
      shown.Perm album.songs := by
    constructor
    · intro partitions
      obtain ⟨i, of_album, missing⟩ := exists_identifier album
      have entries := opened (fun _ => some album) i rfl of_album missing
      rcases partitions (fun _ => some album) i rfl of_album missing with
        ⟨shown, ⟨ordered, numbers⟩, all⟩ | ⟨versions, parts, listed, opens, all⟩
      · exact ⟨shown, ordered, Option.some.inj (entries.symm.trans numbers), all⟩
      · obtain rfl := Option.some.inj (entries.symm.trans listed)
        generalize shape : loadTracks upper none [] 0 (sorted upper album.songs) = tracks at opens
        cases opens with
        | nil => exact ⟨[], .nil, rfl, all⟩
        | cons first _ =>
            obtain ⟨v, n, codecs, rfl, -⟩ := first
            have member := shape ▸ List.mem_cons_self
            exact absurd member (loadTracks_tracks upper none [] 0)
    · rintro ⟨shown, ordered, numbers, all⟩ server i there of_album missing
      exact .inl ⟨shown, ⟨ordered, (opened server i there of_album missing).trans
        (congrArg some numbers)⟩, all⟩
  rw [shown_iff, one_shown_iff upper one]
  unfold VersionsSafe
  refine and_congr ?_ ?_
  · by_cases few : album.songs.length ≤ 1
    · exact iff_of_true (.inl few) (.inl few)
    · obtain ⟨song, member⟩ := List.exists_mem_of_length_pos (by omega : 0 < album.songs.length)
      rw [or_iff_right few, or_iff_right few]
      constructor
      · intro path_set s of_s
        rwa [one s of_s]
      · intro path_set
        rw [← one song member]
        exact path_set song member
  · rw [← version_of_one upper one, inOrder_version_iff]
    constructor
    · intro agree a of_a b of_b _
      exact agree a of_a b of_b (one a of_a) (one b of_b)
    · intro agree a of_a b of_b here here'
      exact agree a of_a b of_b (here.trans here'.symm)

/-- An album of many paths. -/
theorem partitions_of_many (many : 1 < (paths upper album.songs).length) :
    Partitions upper album ↔ VersionsSafe upper album.songs := by
  obtain ⟨distinct, spec⟩ := paths_spec upper album.songs
  obtain ⟨versions, made, each⟩ := versions_listed upper album
  have opened : ∀ server i, server album.id = some album → i.get .thingValue = some album.id →
      versionPath i = some none → handler_element_album upper server i = some versions := by
    intro server i there of_album unread
    rw [handler_unread upper there of_album unread, if_pos many, made]
  have not_shown : ∀ shown, some versions ≠ some (numbered 1 shown) := by
    intro shown same
    obtain ⟨path, listed⟩ := List.exists_mem_of_length_pos (Nat.lt_trans Nat.zero_lt_one many)
    obtain ⟨entry, member, v, n, codecs, rfl, -⟩ := MapM.exists_across each listed
    exact version_not_mem_numbered (Option.some.inj same ▸ member)
  have several : ¬ album.songs.length ≤ 1 := by
    intro few
    have one : ∃ path, ∀ song ∈ album.songs, song.base upper = path := by
      match album.songs, few with
      | [], _ => exact ⟨[], nofun⟩
      | [song], _ => exact ⟨song.base upper, fun s member => by rw [List.mem_singleton.mp member]⟩
    exact absurd ((paths_length_le_one_iff upper).mpr one) (Nat.not_le.mpr many)
  have nothing_encoded : encode [] = [] := rfl
  constructor
  · intro partitions
    obtain ⟨i, of_album, missing⟩ := exists_identifier album
    have entries := opened (fun _ => some album) i rfl of_album (versionPath_missing missing)
    rcases partitions (fun _ => some album) i rfl of_album missing with
      ⟨shown, ⟨-, numbers⟩, -⟩ | ⟨listed, parts, are_listed, opens, -⟩
    · exact absurd (entries.symm.trans numbers) (not_shown shown)
    obtain rfl := Option.some.inj (entries.symm.trans are_listed)
    have shows : ∀ path ∈ paths upper album.songs, path ≠ [] ∧
        InOrder (version upper (sorted upper album.songs) path) := by
      intro path member
      obtain ⟨entry, of_versions, v, n, codecs, rfl, v_album, v_path⟩ :=
        MapM.exists_across each member
      obtain ⟨part, -, v', n', codecs', same, ordered, numbers⟩ :=
        MapM.exists_across opens of_versions
      obtain ⟨rfl, -, -⟩ := Entry.version.inj same
      have filled : path ≠ [] := by
        rintro rfl
        have unread : versionPath v = some none := by
          unfold versionPath
          rw [v_path, nothing_encoded]
        have again := opened (fun _ => some album) v rfl v_album unread
        exact not_shown part (again.symm.trans numbers)
      have tracks : handler_element_album upper (fun _ => some album) v =
          some (numbered 1 (version upper (sorted upper album.songs) path)) :=
        handler_of_path upper rfl v_album filled v_path
      have same_part := numbered_injective (Option.some.inj (tracks.symm.trans numbers))
      exact ⟨filled, same_part ▸ ordered⟩
    have listed_base : ∀ song ∈ album.songs, song.base upper ∈ paths upper album.songs :=
      fun song member => (spec _).mpr ⟨song, member, rfl⟩
    refine ⟨.inr fun song member => (shows _ (listed_base song member)).1, ?_⟩
    intro a of_a b of_b same
    have ordered := (shows _ (listed_base b of_b)).2
    exact (inOrder_version_iff upper).mp ordered a of_a b of_b same rfl
  · rintro ⟨few | filled, agree⟩ server i there of_album missing
    · exact absurd few several
    refine .inr ⟨versions, (paths upper album.songs).map
      (version upper (sorted upper album.songs)), ?_, ?_, versions_perm upper⟩
    · exact opened server i there of_album (versionPath_missing missing)
    · have path_set : ∀ path ∈ paths upper album.songs, path ≠ [] := by
        intro path member
        obtain ⟨song, of_song, rfl⟩ := (spec path).mp member
        exact filled song of_song
      rw [List.forall₂_map_right_iff]
      refine List.Forall₂.flip (((List.forall₂_and_left _ _).mpr ⟨path_set, each⟩).imp ?_)
      rintro path entry ⟨path_set, v, n, codecs, rfl, v_album, v_path⟩
      refine ⟨v, n, codecs, rfl, ?_, handler_of_path upper there v_album path_set v_path⟩
      exact (inOrder_version_iff upper).mpr fun a of_a b of_b here here' =>
        agree a of_a b of_b (here.trans here'.symm)

/-- The versions partition the tracks exactly when no path of several songs reads as missing and
the names of the songs of a path do not go against their places. -/
theorem partitions_iff (album : Album) :
    Partitions upper album ↔ VersionsSafe upper album.songs := by
  by_cases many : 1 < (paths upper album.songs).length
  · exact partitions_of_many upper many
  · obtain ⟨path, one⟩ := (paths_length_le_one_iff upper).mp (Nat.not_lt.mp many)
    exact partitions_of_one upper one

end Theorem

/-- Two songs, one of them in no directory. -/
def rootAlbum : Album where
  id := "1".toList
  songs := [{ id := "2".toList, path := "a.mp3".toList },
    { id := "3".toList, path := "X/b.mp3".toList }]
  some_id := by decide

/-- The version without a path lists the versions again. -/
theorem album_not_partitioned : ¬ ∀ upper album, Partitions upper album := by
  intro all
  have many : 1 < (paths id rootAlbum.songs).length := by decide
  rcases ((partitions_of_many id many).mp (all id rootAlbum)).1 with few | filled
  · exact absurd few (by decide)
  · exact filled _ List.mem_cons_self (by decide)

end Upmpdcli.Subsonic.AlbumUtil
