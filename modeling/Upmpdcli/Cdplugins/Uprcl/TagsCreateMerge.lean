import Mathlib.Tactic.Ring
import Upmpdcli.Cdplugins.Uprcl.TagsCreatePass

set_option autoImplicit false

/- What the merging of the discs into albums leaves in the `albums` table. -/
namespace Upmpdcli.Uprcl

/-- The discs which are merged have the same one of these: title, artist, and the directory
which has their folders. -/
structure GroupKey where
  albtitle : Str
  artist_id : Option Nat
  parent : Str
deriving DecidableEq

def Album.groupKey (row : Album) : GroupKey :=
  ⟨row.albtitle, row.artist_id, dirname row.albfolder⟩

/-- The candidates of a group. -/
def group (albums : List Album) (key : GroupKey) : List Album :=
  albums.filter fun row => candidate row ∧ row.groupKey = key

/-- The discs which have been merged into the album with this id. -/
def discsOf (albums : List Album) (top : Nat) : List Album :=
  albums.filter fun row => row.albtdisc ≠ none ∧ row.albalb = some top

/-- `_albid2rawalbidssorted`, in any order: the parts of an album. -/
def albid2rawalbids (albums : List Album) (albid : Nat) : List Nat :=
  let rows := albums.filter fun row => row.albalb = some albid
  if rows.length ≤ 1 then [albid] else rows.map Album.album_id

/-- The numbers from `n` on, up to the one `k` places behind it. -/
def successive (n : Int) (k : Nat) : List Int := (List.range (k + 1)).map fun i : Nat => n + i

/-- What the merging should do to a table. -/
structure WellMerged (albums merged : List Album) : Prop where
  /-- A row is an album of its own, or a disc of one. -/
  shapes : ∀ row ∈ merged,
    (row.albtdisc = none ∧ row.albalb = some row.album_id) ∨
      (row.albtdisc ≠ none ∧ ∃ top ∈ merged, top.albtdisc = none ∧
        top.albalb = some top.album_id ∧ row.albalb = some top.album_id)
  groups : ∀ top ∈ merged, top.albtdisc = none → discsOf merged top.album_id ≠ [] →
    (∀ row ∈ discsOf merged top.album_id, row.groupKey = top.groupKey) ∧
      ∃ (n : Int) (k : Nat), 1 ≤ n ∧ 1 ≤ k ∧
        sortedDiscs (discsOf merged top.album_id) = successive n k
  /-- The old rows are there in their order, and behind them one row for each merged group. -/
  rows : ∃ kept tops, merged = kept ++ tops ∧
    List.Forall₂ (fun old row => row.album_id = old.album_id ∧ row.groupKey = old.groupKey ∧
      row.albfolder = old.albfolder) albums kept ∧
    (∀ top ∈ tops, top.albtdisc = none ∧ discsOf merged top.album_id ≠ []) ∧
    (merged.map Album.album_id).Nodup
  /-- Every old row is a part of exactly one album which is shown. -/
  reachable : ∀ old ∈ albums, ∃! shown, (∃ row ∈ merged, row.albtdisc = none ∧ row.album_id = shown) ∧
    old.album_id ∈ albid2rawalbids merged shown

section Sequences

theorem successive_zero (n : Int) : successive n 0 = [n] := by simp [successive]

theorem successive_succ (n : Int) (k : Nat) :
    successive n (k + 1) = n :: successive (n + 1) k := by
  rw [successive, List.range_succ_eq_map, List.map_cons, List.map_map]
  refine congrArg₂ _ (by simp) (List.map_congr_left fun i _ => ?_)
  simp only [Function.comp_apply]
  push_cast
  ring

theorem follows_iff (num : Int) (seq : List Int) :
    follows num seq = true ↔ num :: seq = successive num seq.length := by
  induction seq generalizing num with
  | nil => simp [follows, successive_zero]
  | cons e rest ih =>
      rw [follows, decide_eq_true_iff, ih, List.length_cons, successive_succ, List.cons.injEq]
      constructor
      · rintro ⟨rfl, same⟩
        exact ⟨rfl, same⟩
      · rintro ⟨-, same⟩
        have first : e = num + 1 := by
          cases rest with
          | nil => simpa [successive_zero] using same
          | cons e' rest => exact (List.cons.inj (same.trans (successive_succ _ _))).1
        exact ⟨first, first ▸ same⟩

@[simp] theorem length_successive (n : Int) (k : Nat) : (successive n k).length = k + 1 := by
  simp [successive]

/-- The numbers which `_checkseq` takes are those of a run which does not begin with zero. -/
theorem checkseq_iff (seq : List Int) :
    checkseq seq = true ↔ ∃ n k, n ≠ 0 ∧ seq = successive n k := by
  cases seq with
  | nil =>
      refine ⟨nofun, ?_⟩
      rintro ⟨n, k, -, same⟩
      simpa using congrArg List.length same
  | cons num rest =>
      rw [checkseq, decide_eq_true_iff, follows_iff]
      constructor
      · rintro ⟨positive, same⟩
        exact ⟨num, rest.length, positive, same⟩
      · rintro ⟨n, k, positive, same⟩
        have size : rest.length = k := by simpa using congrArg List.length same
        have first : num = n := by
          cases k with
          | zero => exact (List.cons.inj (same.trans (successive_zero n))).1
          | succ k => exact (List.cons.inj (same.trans (successive_succ n k))).1
        exact ⟨first ▸ positive, by rw [size, same, first]⟩

end Sequences

section Scan

variable {env : Env} {albums : List Album} {row : Album}

/-- What was done with a group: its discs were made albums of their own, or merged. -/
inductive Outcome
  | apart
  | merged (top : Nat)
deriving DecidableEq

/-- A row after the groups have been treated in this way. -/
def settle (outcome : GroupKey → Option Outcome) (row : Album) : Album :=
  if candidate row then
    match outcome row.groupKey with
    | none => row
    | some .apart => { row with albtdisc := none }
    | some (.merged top) => { row with albalb := some top }
  else row

@[simp] theorem settle_album_id (outcome : GroupKey → Option Outcome) (row : Album) :
    (settle outcome row).album_id = row.album_id := by
  unfold settle
  split
  · split <;> rfl
  · rfl

@[simp] theorem settle_groupKey (outcome : GroupKey → Option Outcome) (row : Album) :
    (settle outcome row).groupKey = row.groupKey := by
  unfold settle
  split
  · split <;> rfl
  · rfl

@[simp] theorem settle_albfolder (outcome : GroupKey → Option Outcome) (row : Album) :
    (settle outcome row).albfolder = row.albfolder := by
  unfold settle
  split
  · split <;> rfl
  · rfl

theorem settle_of_untreated {outcome : GroupKey → Option Outcome}
    (untreated : outcome row.groupKey = none) : settle outcome row = row := by
  simp [settle, untreated]

/-- Only the rows of groups which have not been treated are still candidates. -/
theorem candidate_settle (outcome : GroupKey → Option Outcome) (row : Album) :
    candidate (settle outcome row) = (candidate row && (outcome row.groupKey).isNone) := by
  unfold settle
  by_cases is_candidate : candidate row = true
  · rw [if_pos is_candidate]
    cases outcome row.groupKey with
    | none => simp [is_candidate]
    | some done => cases done <;> simp [candidate]
  · simp [is_candidate]

/-- The groups which are merged. -/
def Merges (albums : List Album) (key : GroupKey) : Prop :=
  1 < (group albums key).length ∧ checkseq (sortedDiscs (group albums key)) = true

/-- The state of the scan: the old rows are settled, the new ones are the tops of the merged
groups. -/
structure Settled (albums : List Album) (outcome : GroupKey → Option Outcome) (tops : List Album)
    (s : MergeState) : Prop where
  rows : s.albums = albums.map (settle outcome) ++ tops
  distinct : (s.albums.map Album.album_id).Nodup
  top_rows : ∀ top ∈ tops, top.albtdisc = none ∧ top.albalb = none ∧
    outcome top.groupKey = some (.merged top.album_id)
  has_top : ∀ key id, outcome key = some (.merged id) →
    (∃ top ∈ tops, top.album_id = id ∧ top.groupKey = key) ∧ Merges albums key
  apart_of : ∀ key, outcome key = some .apart → ¬ Merges albums key
  merged_ids : ∀ row ∈ albums, row.album_id ∈ s.merged ↔
    candidate row = true ∧ ∃ id, outcome row.groupKey = some (.merged id)

theorem sameGroup_iff (r row : Album) (artist : r.artist_id ≠ some 0) :
    (row.albtitle = r.albtitle ∧
        row.artist_id = (if r.artist_id.getD 0 = 0 then none else r.artist_id) ∧
        (row.albfolder = r.albfolder ∨ dirname row.albfolder = dirname r.albfolder)) ↔
      row.groupKey = r.groupKey := by
  have artists : (if r.artist_id.getD 0 = 0 then none else r.artist_id) = r.artist_id := by
    cases known : r.artist_id with
    | none => rfl
    | some id =>
        have other : id ≠ 0 := fun zero => artist (zero ▸ known)
        simp [other]
  rw [artists, Album.groupKey, Album.groupKey, GroupKey.mk.injEq]
  refine and_congr_right fun _ => and_congr_right fun _ => ⟨?_, .inr⟩
  rintro (same | same)
  · rw [same]
  · exact same

/-- The rows which are found for a row of a group are those of the group which are still
candidates. -/
theorem found_eq (s : MergeState) (r : Album) (artist : r.artist_id ≠ some 0) :
    mergealbumsfilterfolders r.albfolder (sameTitleAndArtist s.albums r) =
      group s.albums r.groupKey := by
  unfold mergealbumsfilterfolders sameTitleAndArtist group
  rw [List.filter_filter]
  refine List.filter_congr fun row _ => ?_
  rw [← Bool.decide_and, decide_eq_decide, ← sameGroup_iff r row artist]
  tauto

theorem group_map_settle {outcome : GroupKey → Option Outcome} (key : GroupKey) :
    group (albums.map (settle outcome)) key =
      if (outcome key).isNone then group albums key else [] := by
  unfold group
  rw [List.filter_map]
  have kept : ∀ row : Album, ((fun row => decide (candidate row ∧ row.groupKey = key)) ∘
      settle outcome) row = (decide (candidate row ∧ row.groupKey = key) &&
        (outcome key).isNone) := by
    intro row
    simp only [Function.comp_apply, candidate_settle, settle_groupKey]
    by_cases here : row.groupKey = key
    · cases known : outcome key <;> simp [here, known]
    · simp [here]
  rw [List.filter_congr fun row _ => kept row]
  cases untreated : (outcome key).isNone with
  | true =>
      rw [if_pos rfl]
      simp only [Bool.and_true]
      rw [List.map_congr_left (g := id), List.map_id]
      intro row member
      have here := (List.mem_filter.mp member).2
      rw [decide_eq_true_iff] at here
      exact settle_of_untreated (by simpa [here.2] using untreated)
  | false => simp

theorem mem_group {key : GroupKey} :
    row ∈ group albums key ↔ row ∈ albums ∧ candidate row = true ∧ row.groupKey = key := by
  simp [group]

/-- A row is known by its id. -/
theorem eq_of_album_id (distinct : (albums.map Album.album_id).Nodup) {other : Album}
    (member : row ∈ albums) (member' : other ∈ albums) (same : row.album_id = other.album_id) :
    row = other := List.inj_on_of_nodup_map distinct member member' same

theorem group_of_tops {outcome : GroupKey → Option Outcome} {tops : List Album}
    (top_rows : ∀ top ∈ tops, top.albtdisc = none) (key : GroupKey) :
    group (albums.map (settle outcome) ++ tops) key =
      if (outcome key).isNone then group albums key else [] := by
  have no_top : tops.filter (fun row => candidate row ∧ row.groupKey = key) = [] := by
    rw [List.filter_eq_nil_iff]
    intro top member
    simp [candidate, top_rows top member]
  rw [← group_map_settle, group, group, List.filter_append, no_top, List.append_nil]

/-- What is done with a group which has not been treated. -/
def treat (outcome : GroupKey → Option Outcome) (key : GroupKey) (done : Outcome) :
    GroupKey → Option Outcome := Function.update outcome key (some done)

theorem settle_treat_of_ne {outcome : GroupKey → Option Outcome} {key : GroupKey} {done : Outcome}
    (elsewhere : row.groupKey ≠ key) :
    settle (treat outcome key done) row = settle outcome row := by
  unfold settle treat
  rw [Function.update_of_ne elsewhere]

/-- A change of the rows of a group which has not been treated treats it. -/
theorem map_settle_treat {outcome : GroupKey → Option Outcome} {key : GroupKey} {done : Outcome}
    (distinct : (albums.map Album.album_id).Nodup) (untreated : outcome key = none)
    (change : Album → Album)
    (as_done : ∀ row, candidate row = true → row.groupKey = key →
      settle (treat outcome key done) row = change row) :
    ((albums.map (settle outcome)).map fun row =>
        if row.album_id ∈ (group albums key).map Album.album_id then change row else row) =
      albums.map (settle (treat outcome key done)) := by
  rw [List.map_map]
  refine List.map_congr_left fun row member => ?_
  simp only [Function.comp_apply, settle_album_id]
  split
  · rename_i inside
    obtain ⟨other, of_group, same⟩ := List.mem_map.mp inside
    obtain ⟨member', is_candidate, here⟩ := mem_group.mp of_group
    obtain rfl := eq_of_album_id distinct member' member same
    rw [as_done other is_candidate here, settle_of_untreated (here ▸ untreated)]
  · rename_i outside
    by_cases here : row.groupKey = key
    · have no_candidate : candidate row = false := by
        by_contra is_candidate
        rw [Bool.not_eq_false] at is_candidate
        exact outside (List.mem_map.mpr ⟨row, mem_group.mpr ⟨member, is_candidate, here⟩, rfl⟩)
      simp [settle, no_candidate]
    · rw [settle_treat_of_ne here]

theorem le_foldl_max (ids : List Nat) (start : Nat) :
    start ≤ ids.foldl max start ∧ ∀ id ∈ ids, id ≤ ids.foldl max start := by
  induction ids generalizing start with
  | nil => simp
  | cons id rest ih =>
      obtain ⟨above, each⟩ := ih (max start id)
      rw [List.foldl_cons]
      refine ⟨by omega, ?_⟩
      intro other member
      rcases List.mem_cons.mp member with rfl | behind
      · omega
      · exact each other behind

theorem nextAlbumId_fresh (albums : List Album) :
    nextAlbumId albums ∉ albums.map Album.album_id := by
  intro there
  have := (le_foldl_max (albums.map Album.album_id) 0).2 _ there
  unfold nextAlbumId at this
  omega

section Step

variable {outcome : GroupKey → Option Outcome} {tops : List Album} {s : MergeState}
  {key : GroupKey}

theorem Settled.start (unmerged : Unmerged albums) :
    Settled albums (fun _ => none) [] { albums, merged := [] } where
  rows := by
    have kept : settle (fun _ => none) = id := funext fun row => settle_of_untreated rfl
    rw [kept, List.map_id, List.append_nil]
  distinct := unmerged.distinct
  top_rows := nofun
  has_top := nofun
  apart_of := nofun
  merged_ids row _ := by simp

/-- The ids of the tops are none of those of the rows of a group. -/
theorem Settled.top_outside (inv : Settled albums outcome tops s) {top : Album}
    (member : top ∈ tops) : top.album_id ∉ (group albums key).map Album.album_id := by
  intro inside
  obtain ⟨row, of_group, same⟩ := List.mem_map.mp inside
  have distinct := inv.distinct
  rw [inv.rows, List.map_append, List.nodup_append] at distinct
  refine distinct.2.2 row.album_id ?_ top.album_id (List.mem_map_of_mem member) same
  rw [List.map_map]
  exact List.mem_map.mpr ⟨row, (mem_group.mp of_group).1, settle_album_id outcome row⟩

/-- The discs of a group are made albums of their own. -/
theorem Settled.toApart (unmerged : Unmerged albums) (inv : Settled albums outcome tops s)
    (untreated : outcome key = none) (rejected : ¬ Merges albums key) :
    Settled albums (treat outcome key .apart) tops
      { s with albums := unsetDiscs ((group albums key).map Album.album_id) s.albums } where
  rows := by
    have tops_kept : unsetDiscs ((group albums key).map Album.album_id) tops = tops := by
      refine (List.map_congr_left fun top member => ?_).trans (List.map_id tops)
      exact if_neg (inv.top_outside member)
    dsimp only
    rw [inv.rows, unsetDiscs, List.map_append]
    refine congrArg₂ _ ?_ tops_kept
    refine map_settle_treat unmerged.distinct untreated _ fun row is_candidate here => ?_
    simp [settle, is_candidate, here, treat]
  distinct := by
    have ids_kept : (unsetDiscs ((group albums key).map Album.album_id) s.albums).map
        Album.album_id = s.albums.map Album.album_id := by
      rw [unsetDiscs, List.map_map]
      refine List.map_congr_left fun row _ => ?_
      simp only [Function.comp_apply]
      split <;> rfl
    rw [ids_kept]
    exact inv.distinct
  top_rows top member := by
    obtain ⟨no_disc, no_top, merged⟩ := inv.top_rows top member
    refine ⟨no_disc, no_top, ?_⟩
    rwa [treat, Function.update_of_ne]
    rintro rfl
    rw [untreated] at merged
    cases merged
  has_top other id merged := by
    by_cases here : other = key
    · simp [treat, here] at merged
    · rw [treat, Function.update_of_ne here] at merged
      exact inv.has_top other id merged
  apart_of other apart := by
    by_cases here : other = key
    · exact here ▸ rejected
    · rw [treat, Function.update_of_ne here] at apart
      exact inv.apart_of other apart
  merged_ids row member := by
    rw [inv.merged_ids row member]
    refine and_congr_right fun _ => exists_congr fun id => ?_
    by_cases here : row.groupKey = key
    · simp [treat, here, untreated]
    · rw [treat, Function.update_of_ne here]

/-- The discs of a group are merged into a new album. -/
theorem Settled.toMerged (unmerged : Unmerged albums) (inv : Settled albums outcome tops s)
    (untreated : outcome key = none) (accepted : Merges albums key) {first : Album}
    (of_group : first ∈ group albums key) :
    Settled albums (treat outcome key (.merged (nextAlbumId s.albums)))
      (tops ++ [membertotopalbum s.albums first])
      { albums := setTops (nextAlbumId s.albums) ((group albums key).map Album.album_id)
          (s.albums ++ [membertotopalbum s.albums first])
        merged := s.merged ++ (group albums key).map Album.album_id } := by
  have fresh := nextAlbumId_fresh s.albums
  obtain ⟨member, is_candidate, here⟩ := mem_group.mp of_group
  have top_key : (membertotopalbum s.albums first).groupKey = key := here
  have old_ids : ∀ row ∈ albums, row.album_id ∈ s.albums.map Album.album_id := by
    intro row member
    rw [inv.rows, List.map_append, List.map_map]
    exact List.mem_append_left _ (List.mem_map.mpr ⟨row, member, settle_album_id outcome row⟩)
  have new_outside : nextAlbumId s.albums ∉ (group albums key).map Album.album_id := by
    intro inside
    obtain ⟨row, of_group, same⟩ := List.mem_map.mp inside
    exact fresh (same ▸ old_ids row (mem_group.mp of_group).1)
  refine ⟨?_, ?_, ?_, ?_, ?_, ?_⟩
  · have tops_kept : setTops (nextAlbumId s.albums) ((group albums key).map Album.album_id)
        (tops ++ [membertotopalbum s.albums first]) =
          tops ++ [membertotopalbum s.albums first] := by
      refine (List.map_congr_left fun top member => ?_).trans (List.map_id _)
      rcases List.mem_append.mp member with old | new
      · exact if_neg (inv.top_outside old)
      · rw [List.mem_singleton.mp new]
        exact if_neg new_outside
    dsimp only
    rw [inv.rows] at tops_kept ⊢
    rw [List.append_assoc, setTops, List.map_append]
    refine congrArg₂ _ ?_ tops_kept
    refine map_settle_treat unmerged.distinct untreated _ fun row is_candidate here => ?_
    simp [settle, is_candidate, here, treat]
  · have ids_kept : (setTops (nextAlbumId s.albums) ((group albums key).map Album.album_id)
        (s.albums ++ [membertotopalbum s.albums first])).map Album.album_id =
          s.albums.map Album.album_id ++ [nextAlbumId s.albums] := by
      have new_id : [nextAlbumId s.albums] =
          [membertotopalbum s.albums first].map Album.album_id := rfl
      rw [setTops, List.map_map, new_id, ← List.map_append]
      refine List.map_congr_left fun row _ => ?_
      simp only [Function.comp_apply]
      split <;> rfl
    rw [ids_kept, ← List.concat_eq_append]
    exact inv.distinct.concat fresh
  · intro top member
    rcases List.mem_append.mp member with old | new
    · obtain ⟨no_disc, no_top, merged⟩ := inv.top_rows top old
      refine ⟨no_disc, no_top, ?_⟩
      rwa [treat, Function.update_of_ne]
      rintro rfl
      rw [untreated] at merged
      cases merged
    · rw [List.mem_singleton.mp new]
      simp only [candidate, decide_eq_true_eq] at is_candidate
      exact ⟨rfl, is_candidate.1, by rw [treat, top_key, Function.update_self]; rfl⟩
  · intro other id merged
    by_cases same : other = key
    · subst same
      rw [treat, Function.update_self, Option.some.injEq, Outcome.merged.injEq] at merged
      exact ⟨⟨_, List.mem_append_right _ (List.mem_singleton_self _), merged, top_key⟩, accepted⟩
    · rw [treat, Function.update_of_ne same] at merged
      obtain ⟨⟨top, inside, facts⟩, accepts⟩ := inv.has_top other id merged
      exact ⟨⟨top, List.mem_append_left _ inside, facts⟩, accepts⟩
  · intro other apart
    by_cases same : other = key
    · simp [treat, same] at apart
    · rw [treat, Function.update_of_ne same] at apart
      exact inv.apart_of other apart
  · intro row member
    rw [List.mem_append, inv.merged_ids row member]
    by_cases same : row.groupKey = key
    · have of_ids : row.album_id ∈ (group albums key).map Album.album_id ↔
          candidate row = true := by
        constructor
        · intro inside
          obtain ⟨other, of_group, same_id⟩ := List.mem_map.mp inside
          obtain ⟨member', is_candidate, -⟩ := mem_group.mp of_group
          exact eq_of_album_id unmerged.distinct member' member same_id ▸ is_candidate
        · intro is_candidate
          exact List.mem_map_of_mem (mem_group.mpr ⟨member, is_candidate, same⟩)
      simp [of_ids, treat, same, untreated]
    · have not_of_ids : row.album_id ∉ (group albums key).map Album.album_id := by
        intro inside
        obtain ⟨other, of_group, same_id⟩ := List.mem_map.mp inside
        obtain ⟨member', -, here⟩ := mem_group.mp of_group
        exact same (eq_of_album_id unmerged.distinct member' member same_id ▸ here)
      rw [treat, Function.update_of_ne same]
      exact or_iff_left not_of_ids

theorem Settled.group_eq (inv : Settled albums outcome tops s) (key : GroupKey) :
    group s.albums key = if (outcome key).isNone then group albums key else [] := by
  rw [inv.rows]
  exact group_of_tops (fun top member => (inv.top_rows top member).1) key

/-- A row of a group which has been treated changes nothing any more. -/
theorem Settled.mergeRow_treated (unmerged : Unmerged albums)
    (inv : Settled albums outcome tops s) (member : row ∈ albums)
    (treated : outcome row.groupKey ≠ none) :
    mergeRow s (settle outcome row) = s := by
  unfold mergeRow
  rw [settle_album_id]
  split
  · rfl
  · have artist : (settle outcome row).artist_id ≠ some 0 := by
      have same : (settle outcome row).artist_id = row.artist_id :=
        congrArg GroupKey.artist_id (settle_groupKey outcome row)
      rw [same]
      exact unmerged.artists row member
    rw [found_eq s _ artist, inv.group_eq, settle_groupKey, if_neg (by simpa using treated)]

/-- A row of a group which has not been treated treats it. -/
theorem Settled.mergeRow_untreated (unmerged : Unmerged albums)
    (inv : Settled albums outcome tops s) (member : row ∈ albums)
    (is_candidate : candidate row = true) (untreated : outcome row.groupKey = none) :
    ∃ done tops', Settled albums (treat outcome row.groupKey done) tops' (mergeRow s row) := by
  have not_merged : row.album_id ∉ s.merged := by
    rw [inv.merged_ids row member]
    simp [untreated]
  have found : mergealbumsfilterfolders row.albfolder (sameTitleAndArtist s.albums row) =
      group albums row.groupKey := by
    rw [found_eq s row (unmerged.artists row member), inv.group_eq, untreated]
    rfl
  have inside : row ∈ group albums row.groupKey := mem_group.mpr ⟨member, is_candidate, rfl⟩
  unfold mergeRow
  rw [if_neg not_merged, found]
  cases of_group : group albums row.groupKey with
  | nil => simp [of_group] at inside
  | cons first rest =>
      cases rest with
      | nil =>
          rw [of_group, List.mem_singleton] at inside
          have rejected : ¬ Merges albums row.groupKey := by simp [Merges, of_group]
          have next := inv.toApart unmerged untreated rejected
          rw [of_group, List.map_singleton, ← inside] at next
          exact ⟨.apart, tops, next⟩
      | cons second rest =>
          dsimp only
          split
          · rename_i accepted
            have accepted : Merges albums row.groupKey := by
              rw [Merges, of_group]
              exact ⟨by simp, accepted⟩
            have next := inv.toMerged unmerged untreated accepted
              (of_group ▸ List.mem_cons_self : first ∈ group albums row.groupKey)
            rw [of_group] at next
            exact ⟨_, _, next⟩
          · rename_i rejected
            have rejected : ¬ Merges albums row.groupKey := by
              rintro ⟨-, accepted⟩
              rw [of_group] at accepted
              exact rejected accepted
            have next := inv.toApart unmerged untreated rejected
            rw [of_group] at next
            exact ⟨.apart, tops, next⟩

variable (env) in
/-- The query shows the row as it is now, or it shows it no more, and then its group has been
treated. -/
theorem Settled.scanned_eq (inv : Settled albums outcome tops s) (member : row ∈ albums)
    (is_candidate : candidate row = true) :
    scanned env s.albums row.album_id = some (settle outcome row) ∨
      (scanned env s.albums row.album_id = none ∧ outcome row.groupKey ≠ none) := by
  have inside : settle outcome row ∈ s.albums := by
    rw [inv.rows]
    exact List.mem_append_left _ (List.mem_map_of_mem member)
  have found : s.albums.find? (fun other => other.album_id = row.album_id) =
      some (settle outcome row) := by
    cases known : s.albums.find? (fun other => other.album_id = row.album_id) with
    | none =>
        have differs := List.find?_eq_none.mp known _ inside
        simp at differs
    | some other =>
        have same := List.find?_some known
        rw [decide_eq_true_iff] at same
        rw [eq_of_album_id inv.distinct (List.mem_of_find?_eq_some known) inside
          (by rw [same, settle_album_id])]
  unfold scanned
  rw [found]
  by_cases untreated : outcome row.groupKey = none
  · left
    simp [Option.filter, candidate_settle, is_candidate, untreated]
  · cases shown : env.stillShown row.album_id with
    | true => exact .inl (by simp [Option.filter])
    | false =>
        right
        simp [Option.filter, candidate_settle, untreated]

variable (env) in
/-- One turn of the scan: the group of the row has been treated, and those which had been stay
as they are. -/
theorem Settled.step (unmerged : Unmerged albums) (inv : Settled albums outcome tops s)
    (member : row ∈ albums) (is_candidate : candidate row = true) :
    ∃ outcome' tops', Settled albums outcome' tops' (mergeScanned env s row.album_id) ∧
      outcome' row.groupKey ≠ none ∧ ∀ key, outcome key ≠ none → outcome' key ≠ none := by
  unfold mergeScanned
  rcases inv.scanned_eq env member is_candidate with shown | ⟨hidden, treated⟩
  · rw [shown]
    by_cases treated : outcome row.groupKey = none
    · obtain ⟨done, tops', next⟩ := inv.mergeRow_untreated unmerged member is_candidate treated
      rw [settle_of_untreated treated]
      refine ⟨_, tops', next, by simp [treat], fun key before => ?_⟩
      rw [treat, Function.update_apply]
      split
      · exact Option.some_ne_none done
      · exact before
    · dsimp only
      rw [inv.mergeRow_treated unmerged member treated]
      exact ⟨outcome, tops, inv, treated, fun _ before => before⟩
  · rw [hidden]
    exact ⟨outcome, tops, inv, treated, fun _ before => before⟩

variable (env) in
/-- The whole scan treats the groups of all its rows. -/
theorem Settled.run (unmerged : Unmerged albums) (inv : Settled albums outcome tops s)
    (shown : List Album) (members : ∀ row ∈ shown, row ∈ albums ∧ candidate row = true) :
    ∃ outcome' tops',
      Settled albums outcome' tops' ((shown.map Album.album_id).foldl (mergeScanned env) s) ∧
        (∀ row ∈ shown, outcome' row.groupKey ≠ none) ∧
          ∀ key, outcome key ≠ none → outcome' key ≠ none := by
  induction shown generalizing outcome tops s with
  | nil => exact ⟨outcome, tops, inv, nofun, fun _ before => before⟩
  | cons row rest ih =>
      obtain ⟨member, is_candidate⟩ := members row List.mem_cons_self
      obtain ⟨between, tops', inv', here, kept⟩ :=
        inv.step env unmerged member is_candidate
      obtain ⟨outcome', tops'', inv'', behind, kept'⟩ :=
        ih inv' fun other inside => members other (List.mem_cons_of_mem row inside)
      refine ⟨outcome', tops'', inv'', ?_, fun key before => kept' key (kept key before)⟩
      intro other inside
      rcases List.mem_cons.mp inside with rfl | later
      · exact kept' _ here
      · exact behind other later

end Step

end Scan

section Result

variable {env : Env} {albums : List Album} {row : Album} {outcome : GroupKey → Option Outcome}
  {tops : List Album} {s : MergeState} {key : GroupKey}

/-- The last statement of `_createmergedalbums`, on one row. -/
def finish (row : Album) : Album :=
  if row.albtdisc = none then { row with albalb := some row.album_id } else row

@[simp] theorem finish_album_id (row : Album) : (finish row).album_id = row.album_id := by
  unfold finish
  split <;> rfl

@[simp] theorem finish_albtdisc (row : Album) : (finish row).albtdisc = row.albtdisc := by
  unfold finish
  split <;> rfl

@[simp] theorem finish_albfolder (row : Album) : (finish row).albfolder = row.albfolder := by
  unfold finish
  split <;> rfl

@[simp] theorem finish_groupKey (row : Album) : (finish row).groupKey = row.groupKey := by
  unfold finish
  split <;> rfl

/-- The end of the scan: no group with a row in the table is left. -/
structure Scanned (albums : List Album) (outcome : GroupKey → Option Outcome) (tops : List Album)
    (s : MergeState) : Prop extends Settled albums outcome tops s where
  treated : ∀ row ∈ albums, candidate row = true → outcome row.groupKey ≠ none

theorem createmergedalbums_eq (env : Env) (unmerged : Unmerged albums) :
    ∃ outcome tops s, Scanned albums outcome tops s ∧
      createmergedalbums env albums = s.albums.map finish := by
  obtain ⟨outcome, tops, inv, treated, -⟩ := (Settled.start unmerged).run env unmerged
    (albums.filter candidate) fun row inside => List.mem_filter.mp inside
  exact ⟨outcome, tops, _, ⟨inv, fun row member is_candidate =>
    treated row (List.mem_filter.mpr ⟨member, is_candidate⟩)⟩, rfl⟩

/-- An old row is an album of its own in the end, or a disc of the album of its group. -/
theorem Scanned.old_row (unmerged : Unmerged albums) (done : Scanned albums outcome tops s)
    (member : row ∈ albums) :
    ((finish (settle outcome row)).albtdisc = none ∧
        (finish (settle outcome row)).albalb = some row.album_id) ∨
      ∃ id, candidate row = true ∧ outcome row.groupKey = some (.merged id) ∧
        row.albtdisc ≠ none ∧ finish (settle outcome row) = { row with albalb := some id } := by
  by_cases is_candidate : candidate row = true
  · have has_disc : row.albtdisc ≠ none := by
      simp only [candidate, decide_eq_true_eq] at is_candidate
      exact is_candidate.2
    cases known : outcome row.groupKey with
    | none => exact absurd known (done.treated row member is_candidate)
    | some result =>
        cases result with
        | apart =>
            left
            simp [settle, is_candidate, known, finish]
        | merged id =>
            right
            refine ⟨id, is_candidate, rfl, has_disc, ?_⟩
            simp [settle, is_candidate, known, finish, has_disc]
  · left
    have no_disc : row.albtdisc = none := by
      simpa [candidate, unmerged.no_tops row member] using is_candidate
    simp [settle, is_candidate, finish, no_disc]

theorem Scanned.mem_iff (done : Scanned albums outcome tops s) {r : Album} :
    r ∈ s.albums.map finish ↔
      (∃ row ∈ albums, finish (settle outcome row) = r) ∨ ∃ top ∈ tops, finish top = r := by
  simp [done.rows]

theorem Scanned.distinct_final (done : Scanned albums outcome tops s) :
    ((s.albums.map finish).map Album.album_id).Nodup := by
  have ids_kept : (s.albums.map finish).map Album.album_id = s.albums.map Album.album_id := by
    rw [List.map_map]
    exact List.map_congr_left fun row _ => finish_album_id row
  rw [ids_kept]
  exact done.distinct

/-- A merged album is the one of one group. -/
theorem Scanned.merged_inj (done : Scanned albums outcome tops s) {other : GroupKey} {id : Nat}
    (here : outcome key = some (.merged id)) (there : outcome other = some (.merged id)) :
    key = other := by
  obtain ⟨⟨top, inside, top_id, top_key⟩, -⟩ := done.has_top key id here
  obtain ⟨⟨top', inside', top_id', top_key'⟩, -⟩ := done.has_top other id there
  have distinct := done.distinct
  rw [done.rows, List.map_append, List.nodup_append] at distinct
  rw [← top_key, ← top_key',
    eq_of_album_id distinct.2.1 inside inside' (top_id.trans top_id'.symm)]

theorem Scanned.disc_row (unmerged : Unmerged albums) (done : Scanned albums outcome tops s)
    (of_group : row ∈ group albums key) {id : Nat} (merged : outcome key = some (.merged id)) :
    row.albtdisc ≠ none ∧ finish (settle outcome row) = { row with albalb := some id } := by
  obtain ⟨member, is_candidate, same⟩ := mem_group.mp of_group
  rcases done.old_row unmerged member with ⟨no_disc, -⟩ | ⟨id', -, here, has_disc, shape⟩
  · have has_disc : row.albtdisc ≠ none := by
      simp only [candidate, decide_eq_true_eq] at is_candidate
      exact is_candidate.2
    simp [settle, is_candidate, same, merged, has_disc] at no_disc
  · rw [same, merged] at here
    cases here
    exact ⟨has_disc, shape⟩

theorem Scanned.disc_iff (unmerged : Unmerged albums) (done : Scanned albums outcome tops s)
    (member : row ∈ albums) {id : Nat} :
    ((finish (settle outcome row)).albtdisc ≠ none ∧
        (finish (settle outcome row)).albalb = some id) ↔
      candidate row = true ∧ outcome row.groupKey = some (.merged id) := by
  constructor
  · rintro ⟨has_disc, album⟩
    rcases done.old_row unmerged member with ⟨no_disc, -⟩ | ⟨id', is_candidate, here, -, shape⟩
    · exact absurd no_disc has_disc
    · rw [shape, Option.some.injEq] at album
      exact ⟨is_candidate, album ▸ here⟩
  · rintro ⟨is_candidate, merged⟩
    obtain ⟨has_disc, shape⟩ :=
      done.disc_row unmerged (mem_group.mpr ⟨member, is_candidate, rfl⟩) merged
    rw [shape]
    exact ⟨has_disc, rfl⟩

/-- The discs of a merged album are the rows of its group. -/
theorem Scanned.discsOf_eq (unmerged : Unmerged albums) (done : Scanned albums outcome tops s)
    {id : Nat} (merged : outcome key = some (.merged id)) :
    discsOf (s.albums.map finish) id =
      (group albums key).map fun row => { row with albalb := some id } := by
  have no_top : (tops.map finish).filter
      (fun row => row.albtdisc ≠ none ∧ row.albalb = some id) = [] := by
    rw [List.filter_eq_nil_iff]
    intro top inside
    obtain ⟨old, old_inside, rfl⟩ := List.mem_map.mp inside
    simp [(done.top_rows old old_inside).1]
  have of_group : ∀ row ∈ albums, ((fun row => decide (row.albtdisc ≠ none ∧
      row.albalb = some id)) ∘ finish ∘ settle outcome) row =
        decide (candidate row ∧ row.groupKey = key) := by
    intro row member
    rw [Function.comp_apply, Function.comp_apply, decide_eq_decide, done.disc_iff unmerged member]
    refine and_congr_right fun _ => ⟨fun here => done.merged_inj here merged, ?_⟩
    rintro rfl
    exact merged
  rw [discsOf, done.rows, List.map_append, List.filter_append, no_top, List.append_nil,
    List.map_map, List.filter_map, List.filter_congr of_group, group]
  exact List.map_congr_left fun row inside => (done.disc_row unmerged inside merged).2

/-- Only the merged albums have discs. -/
theorem Scanned.merged_of_discs (unmerged : Unmerged albums)
    (done : Scanned albums outcome tops s) {id : Nat}
    (discs : discsOf (s.albums.map finish) id ≠ []) : ∃ key, outcome key = some (.merged id) := by
  obtain ⟨disc, inside⟩ := List.exists_mem_of_ne_nil _ discs
  obtain ⟨member, facts⟩ := List.mem_filter.mp inside
  rw [decide_eq_true_iff] at facts
  rcases done.mem_iff.mp member with ⟨row, old, rfl⟩ | ⟨top, new, rfl⟩
  · exact ⟨row.groupKey, ((done.disc_iff unmerged old).mp facts).2⟩
  · rw [finish_albtdisc] at facts
    exact absurd (done.top_rows top new).1 facts.1

theorem sortedDiscs_map_albalb (rows : List Album) (id : Nat) :
    sortedDiscs (rows.map fun row => { row with albalb := some id }) = sortedDiscs rows := by
  rw [sortedDiscs, List.filterMap_map]
  rfl

theorem Scanned.shapes (unmerged : Unmerged albums) (done : Scanned albums outcome tops s)
    {r : Album} (member : r ∈ s.albums.map finish) :
    (r.albtdisc = none ∧ r.albalb = some r.album_id) ∨
      (r.albtdisc ≠ none ∧ ∃ top ∈ s.albums.map finish, top.albtdisc = none ∧
        top.albalb = some top.album_id ∧ r.albalb = some top.album_id) := by
  rcases done.mem_iff.mp member with ⟨row, old, rfl⟩ | ⟨top, new, rfl⟩
  · rcases done.old_row unmerged old with ⟨no_disc, own⟩ | ⟨id, -, here, has_disc, shape⟩
    · exact .inl ⟨no_disc, by rw [own, finish_album_id, settle_album_id]⟩
    · right
      obtain ⟨⟨top, new, top_id, -⟩, -⟩ := done.has_top row.groupKey id here
      have no_disc := (done.top_rows top new).1
      rw [shape]
      refine ⟨has_disc, finish top, done.mem_iff.mpr (.inr ⟨top, new, rfl⟩), ?_, ?_, ?_⟩
      · rw [finish_albtdisc, no_disc]
      · rw [finish_album_id, finish, if_pos no_disc]
      · rw [finish_album_id, top_id]
  · have no_disc := (done.top_rows top new).1
    exact .inl ⟨by rw [finish_albtdisc, no_disc], by rw [finish_album_id, finish, if_pos no_disc]⟩

/-- The album with the discs of a group has the title, the artist and the directory of the
group. -/
theorem Scanned.top_key (done : Scanned albums outcome tops s) {id : Nat}
    (merged : outcome key = some (.merged id)) {r : Album} (member : r ∈ s.albums.map finish)
    (same : r.album_id = id) : r.groupKey = key := by
  obtain ⟨⟨top, new, top_id, of_key⟩, -⟩ := done.has_top key id merged
  have top_member : finish top ∈ s.albums.map finish := done.mem_iff.mpr (.inr ⟨top, new, rfl⟩)
  rw [eq_of_album_id done.distinct_final member top_member
    (by rw [same, finish_album_id, top_id]), finish_groupKey, of_key]

/-- The parts of an album which is shown are the rows which point to it. -/
theorem mem_albid2rawalbids {merged : List Album} (distinct : (merged.map Album.album_id).Nodup)
    {top r : Album} (top_member : top ∈ merged) (own : top.albalb = some top.album_id)
    (member : r ∈ merged) :
    r.album_id ∈ albid2rawalbids merged top.album_id ↔ r.albalb = some top.album_id := by
  have pointing : r ∈ merged.filter (fun row => row.albalb = some top.album_id) ↔
      r.albalb = some top.album_id := by
    simp [member]
  have top_points : top ∈ merged.filter (fun row => row.albalb = some top.album_id) := by
    simp [top_member, own]
  unfold albid2rawalbids
  rw [← pointing]
  dsimp only
  split
  · rename_i single
    have only : merged.filter (fun row => row.albalb = some top.album_id) = [top] := by
      obtain ⟨first, first_eq⟩ := List.length_eq_one_iff.mp
        (le_antisymm single (List.length_pos_of_mem top_points))
      rw [first_eq, List.mem_singleton] at top_points
      rw [first_eq, top_points]
    rw [only, List.mem_singleton, List.mem_singleton]
    exact ⟨eq_of_album_id distinct member top_member, congrArg Album.album_id⟩
  · constructor
    · intro inside
      obtain ⟨other, other_inside, same⟩ := List.mem_map.mp inside
      rwa [← eq_of_album_id distinct (List.mem_of_mem_filter other_inside) member same]
    · exact List.mem_map_of_mem

theorem Scanned.reachable (unmerged : Unmerged albums) (done : Scanned albums outcome tops s)
    (member : row ∈ albums) :
    ∃! shown, (∃ r ∈ s.albums.map finish, r.albtdisc = none ∧ r.album_id = shown) ∧
      row.album_id ∈ albid2rawalbids (s.albums.map finish) shown := by
  have inside : finish (settle outcome row) ∈ s.albums.map finish :=
    done.mem_iff.mpr (.inl ⟨row, member, rfl⟩)
  have same_id : row.album_id = (finish (settle outcome row)).album_id := by simp
  obtain ⟨top, top_inside, no_disc, own, points⟩ : ∃ top ∈ s.albums.map finish,
      top.albtdisc = none ∧ top.albalb = some top.album_id ∧
        (finish (settle outcome row)).albalb = some top.album_id := by
    rcases done.shapes unmerged inside with ⟨no_disc, own⟩ | ⟨-, found⟩
    · exact ⟨_, inside, no_disc, own, own⟩
    · exact found
  refine ⟨top.album_id, ⟨⟨top, top_inside, no_disc, rfl⟩, ?_⟩, ?_⟩
  · rwa [same_id, mem_albid2rawalbids done.distinct_final top_inside own inside]
  · rintro shown ⟨⟨other, other_inside, other_disc, rfl⟩, part⟩
    have other_own : other.albalb = some other.album_id := by
      rcases done.shapes unmerged other_inside with ⟨-, own⟩ | ⟨has_disc, -⟩
      · exact own
      · exact absurd other_disc has_disc
    rw [same_id, mem_albid2rawalbids done.distinct_final other_inside other_own inside, points]
      at part
    exact (Option.some.inj part).symm

theorem rows_kept (albums : List Album) (outcome : GroupKey → Option Outcome) :
    List.Forall₂ (fun old row => row.album_id = old.album_id ∧ row.groupKey = old.groupKey ∧
      row.albfolder = old.albfolder) albums (albums.map (finish ∘ settle outcome)) := by
  rw [List.forall₂_map_right_iff, List.forall₂_same]
  intro row member
  exact ⟨by simp, by simp, by simp⟩

/-- The merged albums have discs. -/
theorem Scanned.discs_of_top (unmerged : Unmerged albums) (done : Scanned albums outcome tops s)
    {top : Album} (new : top ∈ tops) : discsOf (s.albums.map finish) top.album_id ≠ [] := by
  obtain ⟨-, -, merged⟩ := done.top_rows top new
  obtain ⟨-, several, -⟩ := done.has_top _ _ merged
  rw [done.discsOf_eq unmerged merged, Ne, List.map_eq_nil_iff]
  intro none_left
  rw [none_left] at several
  simp at several

/-- The groups are merged well when no run of numbers begins below zero. -/
theorem Scanned.groups_iff (unmerged : Unmerged albums) (done : Scanned albums outcome tops s) :
    (∀ top ∈ s.albums.map finish, top.albtdisc = none →
        discsOf (s.albums.map finish) top.album_id ≠ [] →
        (∀ row ∈ discsOf (s.albums.map finish) top.album_id, row.groupKey = top.groupKey) ∧
          ∃ n k, 1 ≤ n ∧ 1 ≤ k ∧
            sortedDiscs (discsOf (s.albums.map finish) top.album_id) = successive n k) ↔
      ∀ row ∈ albums, candidate row = true → ∀ n k, 1 ≤ k →
        sortedDiscs (group albums row.groupKey) = successive n k → 0 ≤ n := by
  constructor
  · intro well row member is_candidate n k several run
    by_contra negative
    have size : (sortedDiscs (group albums row.groupKey)).length ≤
        (group albums row.groupKey).length := by
      rw [sortedDiscs, List.length_insertionSort]
      exact List.length_filterMap_le _ _
    have merges : Merges albums row.groupKey := by
      refine ⟨?_, (checkseq_iff _).mpr ⟨n, k, by omega, run⟩⟩
      rw [run, length_successive] at size
      omega
    obtain ⟨id, merged⟩ : ∃ id, outcome row.groupKey = some (.merged id) := by
      cases known : outcome row.groupKey with
      | none => exact absurd known (done.treated row member is_candidate)
      | some result =>
          cases result with
          | apart => exact absurd merges (done.apart_of _ known)
          | merged id => exact ⟨id, rfl⟩
    obtain ⟨⟨top, new, top_id, -⟩, -⟩ := done.has_top _ id merged
    obtain ⟨-, n', k', positive, -, run'⟩ := well (finish top)
      (done.mem_iff.mpr (.inr ⟨top, new, rfl⟩))
      (by rw [finish_albtdisc, (done.top_rows top new).1])
      (by rw [finish_album_id]; exact done.discs_of_top unmerged new)
    rw [finish_album_id, top_id, done.discsOf_eq unmerged merged, sortedDiscs_map_albalb, run]
      at run'
    have first : n = n' := by
      have heads := congrArg List.head? run'
      simpa [successive, List.range_succ_eq_map] using heads
    omega
  · intro positive top member no_disc discs
    obtain ⟨key, merged⟩ := done.merged_of_discs unmerged discs
    have merges := (done.has_top key _ merged).2
    have of_key := done.top_key merged member rfl
    rw [done.discsOf_eq unmerged merged]
    constructor
    · intro row inside
      obtain ⟨old, of_group, rfl⟩ := List.mem_map.mp inside
      rw [of_key]
      exact (mem_group.mp of_group).2.2
    · obtain ⟨n, k, not_zero, run⟩ := (checkseq_iff _).mp merges.2
      have full : (sortedDiscs (group albums key)).length = (group albums key).length := by
        rw [sortedDiscs, List.length_insertionSort, List.filterMap_length_eq_length]
        intro row of_group
        have is_candidate := (mem_group.mp of_group).2.1
        simp only [candidate, decide_eq_true_eq] at is_candidate
        exact Option.isSome_iff_ne_none.mpr is_candidate.2
      have several : 1 ≤ k := by
        have := merges.1
        rw [run, length_successive] at full
        omega
      obtain ⟨row, of_group⟩ := List.exists_mem_of_ne_nil (group albums key)
        (List.ne_nil_of_length_pos (by have := merges.1; omega))
      obtain ⟨old, is_candidate, here⟩ := mem_group.mp of_group
      have above := positive row old is_candidate n k several (here ▸ run)
      exact ⟨n, k, by omega, several, by rw [sortedDiscs_map_albalb, run]⟩

end Result

/-- The table is merged well exactly when the numbers of no group of discs are a run which
begins below zero. -/
theorem wellMerged_iff {env : Env} {conf : TagConf} {tables : List (Str × Str)}
    {rcldocs : List Doc} {made : Tags × Db} {albums : List Album}
    (passed : documentPass env conf tables rcldocs = some made)
    (has_albums : made.2.albums = some albums) :
    WellMerged albums (createmergedalbums env albums) ↔
      ∀ row ∈ albums, candidate row = true → ∀ n k, 1 ≤ k →
        sortedDiscs (group albums row.groupKey) = successive n k → 0 ≤ n := by
  have unmerged := unmerged_of_documentPass passed has_albums
  obtain ⟨outcome, tops, s, done, merged⟩ := createmergedalbums_eq env unmerged
  rw [merged, ← done.groups_iff unmerged]
  refine ⟨WellMerged.groups, fun groups => ?_⟩
  refine ⟨fun row => done.shapes unmerged, groups, ?_, fun old => done.reachable unmerged⟩
  refine ⟨albums.map (finish ∘ settle outcome), tops.map finish, ?_, rows_kept albums outcome, ?_,
    done.distinct_final⟩
  · rw [done.rows, List.map_append, List.map_map]
  · intro top inside
    obtain ⟨old, new, rfl⟩ := List.mem_map.mp inside
    rw [finish_albtdisc, finish_album_id]
    exact ⟨(done.top_rows old new).1, done.discs_of_top unmerged new⟩

/-- Plain tags, and tables for all names. -/
def plainTags : TagConf where
  indextags := []
  itemtags := []
  lower := List.map Char.toLower
  accepts _ := true

/-- A track of one of the discs of an album. -/
def discTrack (folder number : String) : Doc :=
  docAt "audio/flac" (folder ++ "/1.flac") [("album", "A"), ("discnumber", number)]

/-- The row of such a track before its album is merged. -/
def discRow (album_id : Nat) (folder : String) (number : Int) : Album where
  album_id
  artist_id := some 1
  albtitle := "A".toList
  albfolder := folder.toList
  albdate := []
  albtdisc := some number

theorem documentPass_discs :
    ((documentPass (bareEnv []) plainTags alltagtotable
      [discTrack "/m/a" "1", discTrack "/m/b" "2"]).bind fun made => made.2.albums) =
        some [discRow 1 "/m/a/" 1, discRow 2 "/m/b/" 2] := by decide

/-- Two discs are merged well. -/
theorem wellMerged_discs :
    WellMerged [discRow 1 "/m/a/" 1, discRow 2 "/m/b/" 2]
      (createmergedalbums (bareEnv []) [discRow 1 "/m/a/" 1, discRow 2 "/m/b/" 2]) := by
  obtain ⟨made, passed, has_albums⟩ := Option.bind_eq_some_iff.mp documentPass_discs
  refine (wellMerged_iff passed has_albums).mpr fun row member _ n k _ run => ?_
  have discs : sortedDiscs (group [discRow 1 "/m/a/" 1, discRow 2 "/m/b/" 2] row.groupKey) =
      [1, 2] := by
    rcases List.mem_pair.mp member with rfl | rfl
    · decide
    · decide
  have heads := congrArg List.head? (discs.symm.trans run)
  have first : 1 = n := by simpa [successive, List.range_succ_eq_map] using heads
  omega

/-- The discs of an album are merged although their numbers begin below zero. -/
theorem not_wellMerged_negative :
    ((documentPass (bareEnv []) plainTags alltagtotable
      [discTrack "/m/a" "-2", discTrack "/m/b" "-1"]).bind fun made => made.2.albums) =
        some [discRow 1 "/m/a/" (-2), discRow 2 "/m/b/" (-1)] ∧
      ¬ WellMerged [discRow 1 "/m/a/" (-2), discRow 2 "/m/b/" (-1)]
        (createmergedalbums (bareEnv []) [discRow 1 "/m/a/" (-2), discRow 2 "/m/b/" (-1)]) := by
  refine ⟨by decide, fun well => ?_⟩
  obtain ⟨-, n, k, positive, -, run⟩ := well.groups
    { discRow 3 "/m/a/" 0 with albtdisc := none, albalb := some 3 }
    (by decide) (by decide) (by decide)
  have discs : sortedDiscs (discsOf (createmergedalbums (bareEnv [])
      [discRow 1 "/m/a/" (-2), discRow 2 "/m/b/" (-1)]) 3) = [-2, -1] := by decide
  have heads := congrArg List.head? (discs.symm.trans run)
  have first : -2 = n := by simpa [successive, List.range_succ_eq_map] using heads
  omega

end Upmpdcli.Uprcl
