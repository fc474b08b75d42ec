import Upmpdcli.Cdplugins.Uprcl.Tags
import Upmpdcli.Lib.Raise

set_option autoImplicit false

/- The tracks of an album, which may have several discs, and their new numbers. -/
namespace Upmpdcli.Uprcl

section Numbers

/-- What an entry is without its number. -/
def unnumbered (e : Entry) : Entry := e.filter (·.1 ≠ numberKey)

@[simp] theorem unnumbered_set (e : Entry) (value : Str) :
    unnumbered (Dict.set e numberKey value) = unnumbered e := by
  induction e with
  | nil => rfl
  | cons entry rest ih =>
      unfold unnumbered at ih ⊢
      by_cases here : entry.1 = numberKey
      · rw [Dict.set, if_pos here, List.filter_cons_of_neg (by simp),
          List.filter_cons_of_neg (by simp [here])]
      · rw [Dict.set_cons_of_ne here, List.filter_cons_of_pos (by simp [here]), ih,
          List.filter_cons_of_pos (by simp [here])]

/-- The numbers which the loop gives to tracks with these numbers. -/
def newNumbers (tno : Option Int) : List Int → List Int
  | [] => []
  | tn :: rest => nextNumber tno tn :: newNumbers (some (nextNumber tno tn)) rest

theorem renumber_none {tracks : List Entry} (lacking : tracks.mapM trackNumber = none)
    (tno : Option Int) : renumber tno tracks = none := by
  induction tracks generalizing tno with
  | nil => cases lacking
  | cons track rest ih =>
      rw [renumber]
      cases first : trackNumber track with
      | none => rfl
      | some tn =>
          cases later : rest.mapM trackNumber with
          | none =>
              simp only [bind, Option.bind_some]
              rw [ih later _]
              rfl
          | some behind =>
              rw [MapM.cons_eq_some.mpr ⟨tn, behind, first, later, rfl⟩] at lacking
              cases lacking

theorem renumber_spec {tracks : List Entry} {numbers : List Int}
    (has_numbers : tracks.mapM trackNumber = some numbers) (tno : Option Int) :
    ∃ entries, renumber tno tracks = some entries ∧
      entries.map unnumbered = tracks.map unnumbered ∧
      entries.mapM trackNumber = some (newNumbers tno numbers) := by
  induction tracks generalizing tno numbers with
  | nil =>
      cases has_numbers
      exact ⟨[], rfl, rfl, rfl⟩
  | cons track rest ih =>
      obtain ⟨tn, behind, first, later, rfl⟩ := MapM.cons_eq_some.mp has_numbers
      obtain ⟨entries, made, same, read⟩ := ih later (some (nextNumber tno tn))
      refine ⟨Dict.set track numberKey (Text.strInt (nextNumber tno tn)) :: entries, ?_, ?_, ?_⟩
      · rw [renumber, first]
        simp only [bind, Option.bind_some]
        rw [made]
        rfl
      · rw [List.map_cons, List.map_cons, unnumbered_set, same]
      · refine MapM.cons_eq_some.mpr ⟨_, _, ?_, read, rfl⟩
        rw [trackNumber, Dict.lookup_set_self]
        exact Text.int_strInt _

/-- The loop raises a number above the one in front of it, but for a number behind a zero. -/
theorem nextNumber_eq_raise {tno : Option Int} {tn : Int} (fine : tno = some 0 → 0 < tn) :
    nextNumber tno tn = Raise.raise tno tn := by
  cases tno with
  | none => rfl
  | some tno =>
      unfold nextNumber Raise.raise
      dsimp only
      by_cases zero : tno = 0
      · subst zero
        have := fine rfl
        rw [if_neg (by omega)]
        omega
      · rw [if_pos zero]
        split
        · omega
        · omega

theorem lt_nextNumber_iff {tno tn : Int} : tno < nextNumber (some tno) tn ↔ (tno = 0 → 0 < tn) := by
  unfold nextNumber
  dsimp only
  split
  · split
    · omega
    · omega
  · omega

/-- No number which is not above zero comes where the last number has become zero. -/
def NeverAtZero (front : Option Int) (numbers : List Int) : Prop :=
  ∀ before next behind, numbers = before ++ next :: behind →
    Raise.last front before = some 0 → 0 < next

theorem neverAtZero_cons (front : Option Int) (tn : Int) (rest : List Int) :
    NeverAtZero front (tn :: rest) ↔
      (front = some 0 → 0 < tn) ∧ NeverAtZero (some (Raise.raise front tn)) rest := by
  constructor
  · intro never
    exact ⟨never [] tn rest rfl, fun before next behind split =>
      never (tn :: before) next behind (by rw [split, List.cons_append])⟩
  · rintro ⟨first, later⟩ before next behind split
    cases before with
    | nil =>
        cases split
        exact first
    | cons tn' before =>
        cases split
        exact later before next behind rfl

theorem isChain_newNumbers (tno : Option Int) (numbers : List Int) :
    List.IsChain (· < ·) (tno.toList ++ newNumbers tno numbers) ↔ NeverAtZero tno numbers := by
  induction numbers generalizing tno with
  | nil =>
      refine iff_of_true ?_ fun before next behind split => by cases before <;> cases split
      cases tno with
      | none => exact .nil
      | some tno => exact .singleton tno
  | cons tn rest ih =>
      rw [neverAtZero_cons, newNumbers]
      have first : List.IsChain (· < ·) (tno.toList ++ nextNumber tno tn ::
            newNumbers (some (nextNumber tno tn)) rest) ↔
          (tno = some 0 → 0 < tn) ∧ List.IsChain (· < ·)
            ((some (nextNumber tno tn)).toList ++ newNumbers (some (nextNumber tno tn)) rest) := by
        cases tno with
        | none => simp
        | some tno =>
            simp only [Option.toList_some, List.singleton_append, List.isChain_cons_cons,
              Option.some.injEq]
            rw [lt_nextNumber_iff]
      rw [first]
      refine and_congr_right fun fine => ?_
      rw [ih, nextNumber_eq_raise fine]

end Numbers

section Types

theorem isSome_lookup_set {e : Entry} {key : String} (there : (e.lookup key).isSome)
    (name : String) (value : Str) : ((Dict.set e name value).lookup key).isSome := by
  rw [Dict.lookup_set]
  split
  · rfl
  · exact there

theorem isSome_lookup_copiedFields {e : Entry} {key : String} (there : (e.lookup key).isSome)
    (doc : Doc) : ((copiedFields doc e).lookup key).isSome := by
  unfold copiedFields
  generalize upnp2rclfields = names
  induction names generalizing e with
  | nil => exact there
  | cons name rest ih =>
      rw [List.foldl_cons]
      apply ih
      dsimp only
      split
      · exact there
      · exact isSome_lookup_set there _ _

theorem isSome_lookup_withArt {env : Env} {doc : Doc} {li e : Entry} {key : String}
    (there : (li.lookup key).isSome) (made : withArt env doc li = some e) :
    (e.lookup key).isSome := by
  unfold withArt at made
  split at made
  · cases made
    exact there
  · obtain ⟨arturi, -, rfl⟩ := Option.map_eq_some_iff.mp made
    split
    · exact isSome_lookup_set there _ _
    · exact there

/-- Every entry which is filled in has a type. -/
theorem isSome_type_of_fillEntry {env : Env} {doc : Doc} {li e : Entry}
    (filled : fillEntry env doc li = some e) : (e.lookup "tp").isSome := by
  have classed : ((withClass doc li).lookup "tp").isSome := by
    unfold withClass
    split
    · exact isSome_lookup_set (by rw [Dict.lookup_set_self]; rfl) _ _
    · exact isSome_lookup_set (by rw [Dict.lookup_set_self]; rfl) _ _
  obtain ⟨art, made, rfl⟩ := Option.map_eq_some_iff.mp filled
  have typed := isSome_lookup_withArt (isSome_lookup_copiedFields classed doc) made
  have artist : ((withArtist doc art).lookup "tp").isSome := by
    unfold withArtist
    split
    · exact isSome_lookup_set typed _ _
    · exact typed
  have didl : ((withDidlfrag doc (withArtist doc art)).lookup "tp").isSome := by
    unfold withDidlfrag
    split
    · exact artist
    · exact isSome_lookup_set artist _ _
  have number : ((withTrackNumber (withDidlfrag doc (withArtist doc art))).lookup "tp").isSome := by
    unfold withTrackNumber
    split
    · exact isSome_lookup_set didl _ _
    · exact didl
  unfold withTitle
  dsimp only
  split
  · exact isSome_lookup_set number _ _
  · exact isSome_lookup_set (isSome_lookup_set number _ _) _ _

end Types

namespace Tagged

variable (t : Tagged)

theorem isSome_type_of_trackEntry {row : Track} (member : row ∈ t.tracks) {pid : Str} {e : Entry}
    (made : t.trackEntry pid row.docidx = some e) : (e.lookup "tp").isSome := by
  obtain ⟨doc, there, track, -⟩ := t.listable row member
  unfold trackEntry at made
  rw [there, Option.bind_some, rcldoctoentry] at made
  split at made
  · rename_i no_audio
    simp only [isTrack, Bool.decide_and, Bool.and_eq_true, List.contains_iff_mem,
      decide_eq_true_eq] at track
    exact absurd track.1 no_audio
  · exact isSome_type_of_fillEntry made

/-- The tracks of a disc, as they are sorted. -/
def discTracks (pid : Str) (albid : Nat) : List Entry :=
  ((t.albumStmt albid).rows.filterMap (t.trackEntry pid)).mergeSort fun e1 e2 =>
    cmpentries t.lower e1 e2 ≤ 0

/-- The entries of the rows of the table for a disc. -/
def IsDisc (pid : Str) (albid : Nat) (disc : List Entry) : Prop :=
  ∃ listed, ((t.tracks.filter fun row => row.album_id = albid).map Track.docidx).mapM
    (t.trackEntry pid) = some listed ∧ disc.Perm listed

theorem rows_albumStmt_perm (albid : Nat) :
    ((t.tracks.filter fun row => row.album_id = albid).map Track.docidx).Perm
      (t.albumStmt albid).rows :=
  (List.mergeSort_perm _ _).symm.map Track.docidx

/-- The list of a disc is whole. -/
theorem discEntries_eq (pid : Str) (albid : Nat) :
    t.discEntries pid albid = some (t.discTracks pid albid) ∧
      t.IsDisc pid albid (t.discTracks pid albid) := by
  obtain ⟨listed, found⟩ := MapM.exists_eq_some
    ((t.tracks.filter fun row => row.album_id = albid).map Track.docidx)
    (fun docidx member => by
      obtain ⟨row, inside, rfl⟩ := List.mem_map.mp member
      exact t.exists_trackEntry (List.mem_of_mem_filter inside) pid)
  obtain ⟨entries, read, perm⟩ := MapM.exists_perm_of_perm (t.rows_albumStmt_perm albid) found
  have typed : entries.all (fun e => (e.lookup "tp").isSome) = true := by
    rw [List.all_eq_true]
    intro e member
    obtain ⟨docidx, inside, made⟩ := MapM.mem_of_eq_some found (perm.symm.subset member)
    obtain ⟨row, selected, rfl⟩ := List.mem_map.mp inside
    exact t.isSome_type_of_trackEntry (List.mem_of_mem_filter selected) made
  have sorted : t.discTracks pid albid =
      entries.mergeSort fun e1 e2 => cmpentries t.lower e1 e2 ≤ 0 := by
    rw [discTracks, MapM.filterMap_of_eq_some read]
  constructor
  · have selected : execute (t.albumStmt albid) 0 0 = some (t.albumStmt albid).rows := rfl
    unfold discEntries trackentriesforstmt sortEntries
    simp only [ne_eq, not_true_eq_false, or_self, if_false, Nat.zero_lt_succ, if_true, selected,
      bind, Option.bind_some, read, typed, or_true]
    rw [sorted]
    rfl
  · refine ⟨listed, found, ?_⟩
    rw [sorted]
    exact (List.mergeSort_perm _ _).trans perm.symm

/-- The tracks of the discs of an album, disc by disc. -/
def albumTracks (pid : Str) (albid : Nat) : List Entry :=
  (t.albid2rawalbidssorted albid).flatMap (t.discTracks pid)

theorem trackentriesforalbum_eq (albid : Nat) (pid : Str) :
    t.trackentriesforalbum albid pid = renumber none (t.albumTracks pid albid) := by
  have discs : (t.albid2rawalbidssorted albid).mapM (t.discEntries pid) =
      some ((t.albid2rawalbidssorted albid).map (t.discTracks pid)) := by
    rw [funext fun albid => (t.discEntries_eq pid albid).1]
    exact List.mapM_pure
  rw [trackentriesforalbum, discs]
  rfl

/-- The parts of an album in the order of the discs, each with its tracks, once. -/
def ListsAlbum (albid : Nat) (pid : Str) (entries : List Entry) : Prop :=
  ∃ (rows : List Album) (discs : List (List Entry)),
    rows.Perm (t.albums.filter fun row => row.albalb = some albid) ∧
    rows.Pairwise (fun row row' => discBefore row row' = true) ∧
    (rows.map Album.album_id).Nodup ∧
    List.Forall₂ (t.IsDisc pid) (rows.map Album.album_id) discs ∧
    entries.map unnumbered = discs.flatten.map unnumbered

/-- The numbers of the tracks. -/
def Increasing (entries : List Entry) : Prop :=
  ∃ numbers, entries.mapM trackNumber = some numbers ∧ numbers.Pairwise (· < ·)

/-- An album which is displayed. -/
def Displayed (albid : Nat) : Prop :=
  ∃ row ∈ t.albums, row.album_id = albid ∧ row.albtdisc = none

theorem discBefore_trans (a b c : Album) (first : discBefore a b = true)
    (second : discBefore b c = true) : discBefore a c = true := by
  unfold discBefore at first second ⊢
  cases disc_a : a.albtdisc with
  | none => rfl
  | some disc =>
      cases disc_b : b.albtdisc with
      | none => simp [disc_a, disc_b] at first
      | some disc' =>
          cases disc_c : c.albtdisc with
          | none => simp [disc_b, disc_c] at second
          | some disc'' =>
              simp only [disc_a, disc_b, disc_c, decide_eq_true_eq] at first second ⊢
              omega

theorem discBefore_total (a b : Album) : (discBefore a b || discBefore b a) = true := by
  unfold discBefore
  cases a.albtdisc with
  | none => rfl
  | some disc =>
      cases b.albtdisc with
      | none => rfl
      | some disc' =>
          simp only [Bool.or_eq_true, decide_eq_true_eq]
          omega

/-- The parts of a displayed album are the rows which point to it. -/
theorem albid2rawalbidssorted_spec {albid : Nat} (displayed : t.Displayed albid) :
    ∃ rows : List Album, rows.Perm (t.albums.filter fun row => row.albalb = some albid) ∧
      rows.Pairwise (fun row row' => discBefore row row' = true) ∧
      (rows.map Album.album_id).Nodup ∧
      t.albid2rawalbidssorted albid = rows.map Album.album_id := by
  obtain ⟨top, member, rfl, no_disc⟩ := displayed
  have perm := List.mergeSort_perm
    (t.albums.filter fun row => row.albalb = some top.album_id) discBefore
  refine ⟨_, perm, List.pairwise_mergeSort discBefore_trans discBefore_total _, ?_, ?_⟩
  · exact ((perm.map Album.album_id).nodup_iff).mpr
      (t.distinct.sublist (List.filter_sublist.map Album.album_id))
  · unfold albid2rawalbidssorted
    dsimp only
    split
    · rename_i single
      have part : top ∈ (t.albums.filter fun row => row.albalb = some top.album_id).mergeSort
          discBefore := by
        rw [perm.mem_iff, List.mem_filter]
        exact ⟨member, by simpa using t.displayed top member no_disc⟩
      obtain ⟨only, only_eq⟩ := List.length_eq_one_iff.mp
        (Nat.le_antisymm single (List.length_pos_of_mem part))
      rw [only_eq, List.mem_singleton] at part
      rw [only_eq, part]
      rfl
    · rfl

/-- The beginning of the list does not make zero the highest number with a number behind it which
is not above zero. -/
def Renumberable (numbers : List Int) : Prop :=
  ∀ before next behind, numbers = before ++ next :: behind →
    IsGreatest (Raise.heights before) 0 → 0 < next

theorem pairwise_newNumbers_iff (numbers : List Int) :
    (newNumbers none numbers).Pairwise (· < ·) ↔ Renumberable numbers := by
  have chain := isChain_newNumbers none numbers
  rw [Option.toList_none, List.nil_append, List.isChain_iff_pairwise] at chain
  rw [chain]
  unfold NeverAtZero Renumberable
  simp only [Raise.last_eq_some_iff]

/-- A track of the album whose number is none. -/
theorem trackentriesforalbum_none {row : Track} (displayed : t.Displayed row.album_id)
    (member : row ∈ t.tracks) (pid : Str)
    (no_number : (t.trackEntry pid row.docidx).bind trackNumber = none) :
    t.trackentriesforalbum row.album_id pid = none := by
  have part : row.album_id ∈ t.albid2rawalbidssorted row.album_id := by
    obtain ⟨rows, perm, -, -, ids⟩ := t.albid2rawalbidssorted_spec displayed
    obtain ⟨top, inside, same, no_disc⟩ := displayed
    rw [ids, ← same]
    apply List.mem_map_of_mem
    rw [perm.mem_iff, List.mem_filter]
    exact ⟨inside, by simpa [same] using t.displayed top inside no_disc⟩
  obtain ⟨listed, found, perm⟩ := (t.discEntries_eq pid row.album_id).2
  have own : row.docidx ∈ (t.tracks.filter fun other =>
      other.album_id = row.album_id).map Track.docidx :=
    List.mem_map_of_mem (List.mem_filter.mpr ⟨member, by simp⟩)
  obtain ⟨e, listed_there, made⟩ := MapM.mem_of_mem found own
  rw [made, Option.bind_some] at no_number
  rw [trackentriesforalbum_eq]
  apply renumber_none
  rw [MapM.eq_none_iff]
  exact ⟨e, List.mem_flatMap.mpr ⟨_, part, perm.symm.subset listed_there⟩, no_number⟩

/-- The tracks of a displayed album are listed disc by disc, once each and with increasing numbers,
exactly when each track number is a number and none which is not above zero comes behind tracks
of which the highest number is zero, when each is counted up by one for each track behind it. -/
theorem listsAlbum_iff {albid : Nat} (displayed : t.Displayed albid) (pid : Str) :
    (∃ entries, t.trackentriesforalbum albid pid = some entries ∧ t.ListsAlbum albid pid entries ∧
        Increasing entries) ↔
      ∃ numbers, (t.albumTracks pid albid).mapM trackNumber = some numbers ∧
        Renumberable numbers := by
  rw [trackentriesforalbum_eq]
  cases has_numbers : (t.albumTracks pid albid).mapM trackNumber with
  | none =>
      rw [renumber_none has_numbers]
      refine iff_of_false ?_ ?_
      · rintro ⟨entries, raised, -⟩
        cases raised
      · rintro ⟨numbers, lacking, -⟩
        cases lacking
  | some numbers =>
      obtain ⟨entries, made, same, read⟩ := renumber_spec has_numbers none
      have lists : t.ListsAlbum albid pid entries := by
        obtain ⟨rows, perm, ordered, distinct, ids⟩ := t.albid2rawalbidssorted_spec displayed
        refine ⟨rows, (rows.map Album.album_id).map (t.discTracks pid), perm, ordered, distinct,
          ?_, ?_⟩
        · rw [List.forall₂_map_right_iff, List.forall₂_same]
          exact fun albid _ => (t.discEntries_eq pid albid).2
        · rw [same, albumTracks, ids, List.flatMap_def]
      constructor
      · rintro ⟨entries', made', -, numbers', read', increasing⟩
        cases made.symm.trans made'
        cases read.symm.trans read'
        exact ⟨numbers, rfl, (pairwise_newNumbers_iff numbers).mp increasing⟩
      · rintro ⟨numbers', is_numbers, renumberable⟩
        cases is_numbers
        exact ⟨entries, made, lists, _, read, (pairwise_newNumbers_iff numbers).mpr renumberable⟩

def shownAlbum : Album where
  album_id := 1
  artist_id := none
  albtitle := "m".toList
  albfolder := "/m".toList
  albdate := []
  albalb := some 1
  albtdisc := none

def onlyTrack : Track where
  docidx := 0
  album_id := 1
  trackno := 1
  path := "/m/a.flac".toList

/-- An album with one track of this number. -/
def single (number : String) : Tagged where
  env := bareEnv []
  lower := id
  rcldocs := [docAt "audio/flac" "/m/a.flac" [("tracknumber", number)]]
  albums := [shownAlbum]
  distinct := by decide
  displayed row member _ := by
    rw [List.mem_singleton.mp member]
    rfl
  tracks := [onlyTrack]
  listable row member := by
    rw [List.mem_singleton.mp member]
    exact ⟨_, rfl, by rfl, by rfl⟩

theorem single_displayed (number : String) : (single number).Displayed onlyTrack.album_id :=
  ⟨shownAlbum, List.mem_singleton_self _, rfl, rfl⟩

theorem single_numbers {number : String} {n : Int}
    (read : ((single number).trackEntry [] 0).bind trackNumber = some n) :
    ((single number).albumTracks [] 1).mapM trackNumber = some [n] := by
  obtain ⟨e, made, has_number⟩ := Option.bind_eq_some_iff.mp read
  have rows : ((single number).albumStmt 1).rows = [0] := by
    have selected : ((single number).tracks.filter fun row => row.album_id = 1) = [onlyTrack] := rfl
    change ((((single number).tracks.filter fun row => row.album_id = 1).mergeSort fun row row' =>
      row.trackno ≤ row'.trackno).map Track.docidx) = [0]
    rw [selected, List.mergeSort_singleton]
    rfl
  have tracks : (single number).albumTracks [] 1 = [e] := by
    have part : (single number).albid2rawalbidssorted 1 = [1] := by
      have selected : ((single number).albums.filter fun row => row.albalb = some 1) =
          [shownAlbum] := rfl
      rw [albid2rawalbidssorted, selected, List.mergeSort_singleton]
      rfl
    rw [albumTracks, part, List.flatMap_singleton, discTracks, rows,
      List.filterMap_cons_some made, List.filterMap_nil, List.mergeSort_singleton]
  rw [tracks]
  exact MapM.cons_eq_some.mpr ⟨n, [], has_number, rfl, rfl⟩

theorem seven_listed :
    ∃ entries, (single "7").trackentriesforalbum 1 [] = some entries ∧
      (single "7").ListsAlbum 1 [] entries ∧ Increasing entries := by
  apply ((single "7").listsAlbum_iff (single_displayed "7") []).mpr
  refine ⟨[7], single_numbers (by decide), ?_⟩
  rintro before next behind split -
  cases before with
  | nil =>
      cases split
      decide
  | cons n before =>
      rw [List.cons_append, List.cons.injEq] at split
      cases before <;> cases split.2

/-- A number such as the one of a side of a record. -/
theorem letter_raises :
    ¬ ∃ entries, (single "A1").trackentriesforalbum 1 [] = some entries ∧
      (single "A1").ListsAlbum 1 [] entries ∧ Increasing entries := by
  rintro ⟨entries, listed, -⟩
  have raises : (single "A1").trackentriesforalbum 1 [] = none :=
    (single "A1").trackentriesforalbum_none (single_displayed "A1")
      (List.mem_singleton_self onlyTrack) [] (by decide)
  cases raises.symm.trans listed

end Tagged

end Upmpdcli.Uprcl
