import Upmpdcli.OHPlaylist

set_option autoImplicit false

/- What `Read` and `ReadList` say about one id. -/
namespace Upmpdcli

theorem UpSong.didlmake_ne_empty (soap : SoapHelp) (song : UpSong) : song.didlmake soap ≠ "" := by
  unfold didlmake wrapDIDL headDIDL
  intro same
  have text := congrArg String.toList same
  simp only [String.toList_append, List.append_eq_nil_iff, String.toList_empty] at text
  exact absurd text.1.1.1.1.1.1 (by decide)

namespace OHPlaylist

variable (help : PlaylistHelp) (pl : OHPlaylist) (w : World) (id : Int32) (answered : Bool)

/-- What `Read` returns for this id. -/
def readOf : UpnpCode × Option (String × String) :=
  ((pl.ohread help w id.toInt answered).1, (pl.ohread help w id.toInt answered).2.1)

/-- The entries which `ReadList` returns for this id alone. -/
def readListOf : List TrackEntry :=
  let sids := Smallut.lltodecstr id.toInt
  (pl.readEntries help w (if answered then [] else [sids]) (Smallut.stringToTokens sids)).1

/-- What is wanted of the two actions, when MPD does or does not answer their questions. -/
structure ReadsAgree : Prop where
  fails : (pl.readOf help w id answered).1 ≠ .success ↔ pl.readListOf help w id answered = []
  same : ∀ uri metadata, (pl.readOf help w id answered).2 = some (uri, metadata) →
    ∀ entry ∈ pl.readListOf help w id answered, entry.uri = uri ∧ entry.metadata = metadata
  read : ∀ uri metadata found, (pl.readOf help w id answered).2 = some (uri, metadata) →
    pl.cacheFind uri = some found → metadata = found
  list : ∀ entry ∈ pl.readListOf help w id answered, ∀ found,
    pl.cacheFind entry.uri = some found → entry.metadata = found

/-- The condition under which they do: nothing but the generated data is cached for the
entry of the saved queue. -/
def Unchanged : Prop :=
  ∀ song, pl.savedSong id.toInt = some song →
    id ≠ -1 ∧ ∀ found, pl.cacheFind song.rsrc.uri = some found → found = song.didlmake help.soap

theorem readListOf_eq :
    pl.readListOf help w id answered =
      (pl.readEntry help w (Smallut.lltodecstr id.toInt) answered).1.toList := by
  unfold readListOf
  dsimp only
  rw [Smallut.stringToTokens_lltodecstr]
  cases answered with
  | true => simp [readEntries]
  | false => simp [readEntries]

theorem atoi_id : Smallut.atoi (Smallut.lltodecstr id.toInt) = id.toInt := by
  have low := id.le_toInt
  have high := id.toInt_lt
  exact Smallut.atoi_lltodecstr low high

theorem toInt_eq_neg_one_iff : id.toInt = -1 ↔ id = -1 := by
  constructor
  · intro same
    exact Int32.toInt_inj.mp same
  · rintro rfl
    rfl

/-- No song of MPD has the id -1. -/
theorem statSong_neg_one : statSong w (-1) answered = none := by
  unfold statSong
  cases answered with
  | false => rfl
  | true =>
      rw [if_pos rfl, Option.map_eq_none_iff, List.find?_eq_none]
      intro song there
      have below := (w.mpd.queue.numbered song there).2
      have number : unsigned (-1) = 2 ^ 32 - 1 := rfl
      rw [number, decide_eq_true_eq]
      omega

variable {help pl w id answered}

theorem readsAgree_of_fails (read : pl.readOf help w id answered = (.internalError, none))
    (list : pl.readListOf help w id answered = []) : ReadsAgree help pl w id answered := by
  constructor
  · rw [read, list]
    simp
  · intro uri metadata told
    rw [read] at told
    cases told
  · intro uri metadata found told
    rw [read] at told
    cases told
  · rw [list]
    simp

theorem not_readsAgree_of_missing {data : String × String}
    (read : pl.readOf help w id answered = (.success, some data))
    (list : pl.readListOf help w id answered = []) : ¬ ReadsAgree help pl w id answered := by
  intro agree
  have fails := agree.fails.mpr list
  rw [read] at fails
  exact fails rfl

/-- When both find a song, what matters is the metadata. -/
theorem readsAgree_iff_of_found {token uri metadata listed : String}
    (read : pl.readOf help w id answered = (.success, some (uri, metadata)))
    (list : pl.readListOf help w id answered = [⟨token, uri, listed⟩]) :
    ReadsAgree help pl w id answered ↔
      listed = metadata ∧ ∀ found, pl.cacheFind uri = some found → metadata = found := by
  constructor
  · intro agree
    have same := agree.same uri metadata (by rw [read]) ⟨token, uri, listed⟩ (by rw [list]; simp)
    exact ⟨same.2, fun found => agree.read uri metadata found (by rw [read])⟩
  · rintro ⟨rfl, cached⟩
    constructor
    · rw [read, list]
      simp
    · intro uri' metadata told
      rw [read] at told
      cases told
      rw [list]
      simp
    · intro uri' metadata found told
      rw [read] at told
      cases told
      exact cached found
    · rw [list]
      intro entry there found
      rw [List.mem_singleton.mp there]
      exact cached found

/-- The data for a song of the active playlist is what the cache has for it, if it has any. -/
theorem songMetadata_of_cached (help : PlaylistHelp) {song : UpSong} {found : String}
    (cached : pl.cacheFind song.rsrc.uri = some found) :
    (pl.songMetadata help song).1 = found := by
  unfold songMetadata
  rw [cached]

/-- The active playlist asks MPD and then the cache for both. -/
theorem readsAgree_of_active (active : pl.m_active = true) : ReadsAgree help pl w id answered := by
  cases stat : statSong w id.toInt answered with
  | none =>
      apply readsAgree_of_fails
      · unfold readOf ohread
        rw [if_pos active, stat]
      · rw [readListOf_eq]
        unfold readEntry
        dsimp only
        rw [if_pos active, atoi_id, stat]
        split <;> rfl
  | some song =>
      have known : id.toInt ≠ -1 := by
        intro same
        rw [same, statSong_neg_one] at stat
        cases stat
      have read : pl.readOf help w id answered =
          (.success, some (song.rsrc.uri, (pl.songMetadata help song).1)) := by
        unfold readOf ohread
        rw [if_pos active, stat]
      have list : pl.readListOf help w id answered =
          [⟨Smallut.lltodecstr id.toInt, song.rsrc.uri, (pl.songMetadata help song).1⟩] := by
        rw [readListOf_eq]
        unfold readEntry
        rw [atoi_id, if_neg known, if_pos active, stat]
        rfl
      apply (readsAgree_iff_of_found read list).mpr
      exact ⟨rfl, fun found cached => songMetadata_of_cached help cached⟩

/-- The inactive playlist asks the cache for one of them only. -/
theorem readsAgree_iff_of_inactive (inactive : pl.m_active ≠ true) :
    ReadsAgree help pl w id answered ↔ pl.Unchanged help id := by
  cases saved : pl.savedSong id.toInt with
  | none =>
      refine iff_of_true ?_ fun song there => ?_
      · apply readsAgree_of_fails
        · unfold readOf ohread
          rw [if_neg inactive, saved]
        · rw [readListOf_eq]
          unfold readEntry
          dsimp only
          rw [if_neg inactive, atoi_id, saved]
          split <;> rfl
      · rw [saved] at there
        cases there
  | some song =>
      have read : pl.readOf help w id answered =
          (.success, some (song.rsrc.uri, song.didlmake help.soap)) := by
        unfold readOf ohread
        rw [if_neg inactive, saved]
      have unchanged : pl.Unchanged help id ↔ id ≠ -1 ∧
          ∀ found, pl.cacheFind song.rsrc.uri = some found → found = song.didlmake help.soap := by
        unfold Unchanged
        rw [saved]
        simp
      rw [unchanged]
      by_cases skipped : id.toInt = -1
      · have list : pl.readListOf help w id answered = [] := by
          rw [readListOf_eq]
          unfold readEntry
          rw [atoi_id, if_pos skipped]
          rfl
        refine iff_of_false (not_readsAgree_of_missing read list) fun both => ?_
        exact both.1 ((toInt_eq_neg_one_iff id).mp skipped)
      · have numbered : id ≠ -1 := fun same => skipped ((toInt_eq_neg_one_iff id).mpr same)
        have listed : pl.readListOf help w id answered =
            if (pl.cacheFind song.rsrc.uri).getD (song.didlmake help.soap) = "" then []
            else [⟨Smallut.lltodecstr id.toInt, song.rsrc.uri,
              (pl.cacheFind song.rsrc.uri).getD (song.didlmake help.soap)⟩] := by
          rw [readListOf_eq]
          unfold readEntry
          rw [atoi_id, if_neg skipped, if_neg inactive, saved]
          dsimp only
          split <;> rfl
        have generated := UpSong.didlmake_ne_empty help.soap song
        cases cached : pl.cacheFind song.rsrc.uri with
        | none =>
            rw [cached, Option.getD_none, if_neg generated] at listed
            refine iff_of_true ((readsAgree_iff_of_found read listed).mpr ?_) ?_
            · exact ⟨rfl, fun found there => by rw [cached] at there; cases there⟩
            · exact ⟨numbered, fun found there => by cases there⟩
        | some found =>
            rw [cached, Option.getD_some] at listed
            by_cases empty : found = ""
            · rw [if_pos empty] at listed
              refine iff_of_false (not_readsAgree_of_missing read listed) fun both => ?_
              exact generated ((both.2 found rfl).symm.trans empty)
            · rw [if_neg empty] at listed
              rw [readsAgree_iff_of_found read listed, cached]
              simp [numbered, eq_comm]

variable (help pl w id answered)

/-- The two actions agree about the active playlist, and about the inactive one exactly when
the condition is met. -/
theorem readsAgree_iff :
    ReadsAgree help pl w id answered ↔ pl.m_active = true ∨ pl.Unchanged help id := by
  by_cases active : pl.m_active = true
  · exact iff_of_true (readsAgree_of_active active) (.inl active)
  · rw [readsAgree_iff_of_inactive active]
    simp [active]

/-- An inactive playlist of one song, which came with its own metadata. -/
def oneSaved : OHPlaylist where
  m_active := false
  m_mpdsavedstate := { queue := [{ mpdid := 1, rsrc := { uri := "http://h/a" } }] }
  m_metacache := [("http://h/a", "<DIDL-Lite/>")]

theorem reads_disagree :
    ¬ ∀ (help : PlaylistHelp) (pl : OHPlaylist) (w : World) (id : Int32) (answered : Bool),
      ReadsAgree help pl w id answered := by
  intro always
  have agree := always .plain oneSaved {} 1 true
  have cached := agree.read "http://h/a" _ "<DIDL-Lite/>" rfl rfl
  exact absurd cached (by decide)

end OHPlaylist

end Upmpdcli
