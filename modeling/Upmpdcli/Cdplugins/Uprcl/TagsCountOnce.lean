import Upmpdcli.Cdplugins.Uprcl.TagsCount

set_option autoImplicit false

/- Which listings of the tree of the tags count and list each track once. -/
namespace Upmpdcli.Uprcl

namespace TagTree

variable (t : TagTree)

section Containers

variable (id pid title : Str) (arturi : Option Str) (artist date upnpclass : Str)

theorem lookup_id_direntry :
    (direntry id pid title arturi artist date upnpclass).lookup "id" = some id := rfl

theorem isct_direntry : isct (direntry id pid title arturi artist date upnpclass) = true := by
  have type : (direntry id pid title arturi artist date upnpclass).lookup "tp" =
      some "ct".toList := rfl
  rw [isct, type]
  decide

theorem lookup_class_direntry :
    (direntry id pid title arturi artist date upnpclass).lookup "upnp:class" = some upnpclass := by
  unfold direntry
  split <;> split <;> split <;> rfl

end Containers

section Path

variable {t}

/-- The walk over a path chooses its values. -/
theorem walk_qpath {path : List (Str × Nat)}
    (tags : ∀ choice ∈ path, choice.1 ∈ t.tags.indextags) (rest : List Str) (s : Selection)
    (col : Option Str) :
    ∃ col', t.walk s col (qpath path ++ rest) =
      t.walk { s with chosen := s.chosen ++ (t.selection [] path).chosen } col' rest := by
  induction path generalizing s col with
  | nil => exact ⟨col, by simp [qpath, selection]⟩
  | cons choice more ih =>
      rw [List.forall_mem_cons] at tags
      obtain ⟨tb, found⟩ := Option.isSome_iff_exists.mp (t.tabled choice.1 tags.1).1
      have table : t.tagTable choice.1 = tb := by rw [tagTable, found, Option.getD_some]
      have split : qpath (choice :: more) ++ rest =
          ('=' :: choice.1) :: Text.str choice.2 :: (qpath more ++ rest) := rfl
      have no_target (behind : List Str) : special s ('=' :: choice.1) behind = none := by
        unfold special
        have no_albums : ¬ '=' :: choice.1 = "albums".toList := fun same => by
          have head : some '=' = some 'a' := congrArg List.head? same
          exact absurd head (by decide)
        have no_items : ¬ '=' :: choice.1 = "items".toList := fun same => by
          have head : some '=' = some 'i' := congrArg List.head? same
          exact absurd head (by decide)
        rw [if_neg no_albums, if_neg no_items]
      obtain ⟨col', walked⟩ := ih tags.2
        { s with chosen := s.chosen ++ [(tb, (choice.2 : Int))] } (some tb)
      refine ⟨col', ?_⟩
      have named : t.column col ('=' :: choice.1) = some tb := found
      rw [split, walk, no_target]
      simp only [named, Text.int_str, bind, Option.bind_some]
      rw [walked]
      simp only [selection, List.map_cons, table, List.append_assoc, List.singleton_append]

theorem tagsbrowse_qpath {path : List (Str × Nat)}
    (tags : ∀ choice ∈ path, choice.1 ∈ t.tags.indextags) (pid folder : Str) :
    t.tagsbrowse pid (qpath path) folder = t.browsecontent pid (t.selection folder path) ∧
      t.tagsbrowse pid (qpath path ++ ["items".toList]) folder =
        t.tagsbrowseitems pid (t.selection folder path) := by
  constructor
  · obtain ⟨col, walked⟩ := walk_qpath tags [] { folder } none
    rw [List.append_nil, List.nil_append] at walked
    rw [tagsbrowse, walked]
    rfl
  · obtain ⟨col, walked⟩ := walk_qpath tags ["items".toList] { folder } none
    rw [List.nil_append] at walked
    rw [tagsbrowse, walked]
    rfl

end Path

section Rest

variable {t} {s : Selection} {albid : Nat}

theorem displayed_of_onlyAlbum (only : t.OnlyAlbum s albid) : t.Displayed albid := by
  obtain ⟨row, member⟩ := List.exists_mem_of_ne_nil _ only.1
  exact displayed_of_albumOf (matching_subset member) (only.2 row member)

/-- An album has as many tracks as the selection when none is lacking. -/
theorem length_albumRows_iff (only : t.OnlyAlbum s albid) :
    (t.albumRows albid).length ≠ (t.matching s).length ↔ t.Lacks s albid := by
  have selected : (t.albumRows albid).filter (fun row => row ∈ t.matching s) = t.matching s := by
    have whole : t.matching s = t.tracks.filter fun row => row ∈ t.matching s := by
      conv_lhs => rw [matching]
      refine List.filter_congr fun row member => ?_
      rw [decide_eq_decide, matching, List.mem_filter, decide_eq_true_eq]
      exact (and_iff_right member).symm
    conv_rhs => rw [whole]
    rw [albumRows, List.filter_filter]
    refine List.filter_congr fun row _ => ?_
    rw [← Bool.decide_and, decide_eq_decide]
    exact and_iff_left_of_imp (only.2 row)
  have lengths := List.length_filter_eq_length_iff
    (p := fun row => decide (row ∈ t.matching s)) (l := t.albumRows albid)
  rw [selected] at lengths
  rw [ne_comm, ne_eq, lengths]
  simp only [decide_eq_true_eq, Lacks]
  push Not
  exact Iff.rfl

/-- The entry for the rest of the only album is there when there is one. -/
theorem restOfAlbum_spec (only : t.OnlyAlbum s albid)
    (numbers : ∀ row ∈ t.albumRows albid, t.HasNumber row) (id pid : Str) :
    (t.Lacks s albid →
        t.restOfAlbum id pid albid (t.matching s).length = some [completeAlbum id pid]) ∧
      (¬ t.Lacks s albid → t.restOfAlbum id pid albid (t.matching s).length = some []) := by
  obtain ⟨tlist, made, length⟩ :=
    trackentriesforalbum_length (displayed_of_onlyAlbum only) pid numbers
  have lacks := length_albumRows_iff only
  rw [← length] at lacks
  unfold restOfAlbum
  rw [made]
  simp only [bind, Option.bind_some]
  constructor
  · intro lacking
    rw [if_pos (lacks.mpr lacking)]
    rfl
  · intro whole
    rw [if_neg fun differ => whole (lacks.mp differ)]
    rfl

theorem dedup_albids_iff {albids : List Nat}
    (shown : (t.matching s).mapM t.albumOf = some albids) :
    albids.dedup = [albid] ↔ t.OnlyAlbum s albid := by
  rw [Junction.dedup_eq_singleton]
  have lengths := MapM.length_of_eq_some shown
  constructor
  · rintro ⟨some_album, same⟩
    refine ⟨fun none_matches => some_album ?_, fun row member => ?_⟩
    · rw [none_matches] at lengths
      exact List.eq_nil_of_length_eq_zero lengths
    · obtain ⟨other, inside, made⟩ := MapM.mem_of_mem shown member
      rw [made, same other inside]
  · rintro ⟨some_match, same⟩
    refine ⟨fun no_album => some_match ?_, fun other inside => ?_⟩
    · rw [no_album] at lengths
      exact List.eq_nil_of_length_eq_zero lengths.symm
    · obtain ⟨row, member, made⟩ := MapM.mem_of_eq_some shown inside
      rw [same row member, Option.some.injEq] at made
      exact made.symm

end Rest

section Content

variable {t} {s : Selection} {albids : List Nat}

theorem subtreealbums_eq (selected : t.selectRows s = some (t.matching s)) :
    ∃ albids, (t.matching s).mapM t.albumOf = some albids ∧
      t.subtreealbums s = some albids.dedup := by
  obtain ⟨albids, shown⟩ := MapM.exists_eq_some (f := t.albumOf) (t.matching s) fun row member => by
    obtain ⟨_, -, -, _, -, -, -, made⟩ := albumOf_spec (matching_subset member)
    rw [made]
    exact Option.some_ne_none _
  refine ⟨albids, shown, ?_⟩
  unfold subtreealbums
  rw [selected]
  simp only [bind, Option.bind_some]
  rw [List.mapM_map]
  change ((t.matching s).mapM t.albumOf).bind _ = _
  rw [shown]
  rfl

/-- The tags of which the selected tracks have more than one value. -/
theorem subtreetags_spec (selected : t.selectRows s = some (t.matching s))
    (junctions : ∀ tt ∈ t.tags.indextags, t.junction (t.tagTable tt) ≠ none) {names : List Str}
    (inside : names ⊆ t.tags.indextags) :
    ∃ subqs, t.subtreetags s names = some subqs ∧
      ∀ tt, tt ∈ subqs ↔ tt ∈ names ∧ t.Splits s tt := by
  induction names with
  | nil => exact ⟨[], rfl, by simp⟩
  | cons name rest ih =>
      rw [List.cons_subset] at inside
      obtain ⟨subqs, later, members⟩ := ih inside.2
      obtain ⟨tb, found⟩ := Option.isSome_iff_exists.mp (t.tabled name inside.1).1
      have table : t.tagTable name = tb := by rw [tagTable, found, Option.getD_some]
      obtain ⟨pairs, has_pairs⟩ := Option.ne_none_iff_exists'.mp (junctions name inside.1)
      rw [table] at has_pairs
      unfold subtreetags
      rw [found]
      simp only [bind, Option.bind_some]
      by_cases chosen : tb ∈ s.chosen.map Prod.fst
      · rw [if_pos chosen]
        refine ⟨subqs, later, fun tt => ?_⟩
        rw [members, List.mem_cons, or_and_right]
        refine (or_iff_right ?_).symm
        rintro ⟨rfl, splits⟩
        exact splits.1 (table ▸ chosen)
      · have counted : t.countValues s tb =
            some (Junction.values Track.docidx pairs (t.matching s)).dedup.length := by
          unfold countValues
          rw [selected, has_pairs]
          rfl
        have splits : t.Splits s name ↔
            1 < (Junction.values Track.docidx pairs (t.matching s)).dedup.length := by
          unfold Splits
          rw [Junction.one_lt_length_dedup, table, has_pairs, Option.getD_some]
          exact and_iff_right chosen
        rw [if_neg chosen, counted, later]
        simp only [Option.bind_some]
        by_cases more : 1 < (Junction.values Track.docidx pairs (t.matching s)).dedup.length
        · refine ⟨name :: subqs, by rw [if_pos more]; rfl, fun tt => ?_⟩
          rw [List.mem_cons, List.mem_cons, members, or_and_right]
          refine or_congr_left (and_iff_left_of_imp ?_).symm
          rintro rfl
          exact splits.mpr more
        · refine ⟨subqs, by rw [if_neg more]; rfl, fun tt => ?_⟩
          rw [members, List.mem_cons, or_and_right]
          refine (or_iff_right ?_).symm
          rintro ⟨rfl, has_more⟩
          exact more (splits.mp has_more)

theorem contentRestId_inj {pid : Str} {albid other : Nat}
    (same : contentRestId pid albid = contentRestId pid other) : albid = other := by
  unfold contentRestId at same
  rw [List.append_left_inj, List.append_right_inj] at same
  exact Text.str_injective same

/-- The entries for the albums of a selection. -/
theorem contentAlbums_spec (shown : (t.matching s).mapM t.albumOf = some albids)
    (numbers : ∀ albid, t.OnlyAlbum s albid → ∀ row ∈ t.albumRows albid, t.HasNumber row)
    (pid : Str) :
    ∃ albums displays,
      t.contentAlbums pid (t.matching s).length albids.dedup = some (albums, displays) ∧
        (∀ e ∈ albums, isct e = true ∧ e.lookup "id" ≠ some (pid ++ "$items".toList)) ∧
        (∀ albid, completeAlbum (contentRestId pid albid) pid ∈ albums ↔
          t.OnlyAlbum s albid ∧ t.Lacks s albid) ∧
        (displays = false ↔ ∃ albid, t.OnlyAlbum s albid ∧ ¬ t.Lacks s albid) := by
  have no_items (behind : Str) (other : behind.head? ≠ some 'i') :
      some (pid ++ '$' :: behind) ≠ some (pid ++ "$items".toList) := by
    intro same
    rw [Option.some.injEq, List.append_right_inj] at same
    have heads : behind.head? = some 'i' := congrArg (fun text => (List.tail text).head?) same
    exact other heads
  have only_iff : ∀ albid, albids.dedup = [albid] ↔ t.OnlyAlbum s albid :=
    fun albid => dedup_albids_iff shown
  match found : albids.dedup with
  | [] =>
      refine ⟨[], true, rfl, nofun, fun albid => ?_, ?_⟩
      · refine iff_of_false List.not_mem_nil fun both => ?_
        have single := (only_iff albid).mpr both.1
        rw [found] at single
        cases single
      · refine iff_of_false nofun ?_
        rintro ⟨albid, only, -⟩
        have single := (only_iff albid).mpr only
        rw [found] at single
        cases single
  | [albid] =>
      have only := (only_iff albid).mp found
      have unique {other : Nat} (also_only : t.OnlyAlbum s other) : other = albid := by
        have single := (only_iff other).mpr also_only
        rw [found] at single
        exact (List.cons.inj single).1.symm
      obtain ⟨lacking, whole⟩ :=
        restOfAlbum_spec only (numbers albid only) (contentRestId pid albid) pid
      have rest_id : (contentRestId pid albid) = pid ++ '$' :: ("albums$".toList ++
          Text.str albid ++ "$showca".toList) := by simp [contentRestId]
      by_cases lacks : t.Lacks s albid
      · refine ⟨[completeAlbum (contentRestId pid albid) pid], true, ?_, ?_, fun other => ?_, ?_⟩
        · change (t.restOfAlbum (contentRestId pid albid) pid albid
            (t.matching s).length).bind _ = _
          rw [lacking lacks]
          rfl
        · intro e member
          rw [List.mem_singleton.mp member, completeAlbum, lookup_id_direntry, rest_id]
          exact ⟨isct_direntry .., no_items _ (by simp)⟩
        · rw [List.mem_singleton]
          constructor
          · intro same
            have ids := congrArg (List.lookup "id") same
            rw [completeAlbum, completeAlbum, lookup_id_direntry, lookup_id_direntry,
              Option.some.injEq] at ids
            rw [contentRestId_inj ids]
            exact ⟨only, lacks⟩
          · rintro ⟨also_only, -⟩
            rw [unique also_only]
        · refine iff_of_false nofun ?_
          rintro ⟨other, also_only, all_there⟩
          exact all_there (unique also_only ▸ lacks)
      · obtain ⟨top, inside, top_id, no_disc⟩ := displayed_of_onlyAlbum only
        obtain ⟨artists, has_artists⟩ := Option.isSome_iff_exists.mp t.has_artists
        obtain ⟨alb, others, sorted⟩ : ∃ alb others, (t.shownAlbums (· = albid)).mergeSort
            (fun alb alb' => compareText alb.albtitle alb'.albtitle ≤ 0) = alb :: others := by
          refine List.exists_cons_of_ne_nil fun none_shown => ?_
          have shown_there : top ∈ t.shownAlbums (· = albid) := by
            simp [shownAlbums, inside, top_id, no_disc]
          rw [← (List.mergeSort_perm _ _).mem_iff, none_shown] at shown_there
          cases shown_there
        let e := Dict.set (albumEntry artists pid alb) "id" (contentRestId pid albid)
        have id_e : e.lookup "id" = some (contentRestId pid albid) := Dict.lookup_set_self _ _ _
        have class_e : e.lookup "upnp:class" = some albumClass := by
          rw [Dict.lookup_set_of_ne (by decide), albumEntry, lookup_class_direntry]
        have type_e : isct e = true := by
          have container := isct_direntry (pid ++ "$".toList ++ Text.str alb.album_id) pid alb.albtitle
            alb.albarturi (artistName artists alb.artist_id) alb.albdate albumClass
          unfold isct at container ⊢
          rwa [Dict.lookup_set_of_ne (by decide)]
        refine ⟨[e], false, ?_, ?_, fun other => ?_, ?_⟩
        · change (t.restOfAlbum (contentRestId pid albid) pid albid
            (t.matching s).length).bind _ = _
          rw [whole lacks]
          change (t.direntriesforalbums pid (t.shownAlbums (· = albid))).bind _ = _
          rw [direntriesforalbums, has_artists, Option.map_some, sorted]
          rfl
        · intro e' member
          rw [List.mem_singleton.mp member, id_e, rest_id]
          exact ⟨type_e, no_items _ (by simp)⟩
        · rw [List.mem_singleton]
          constructor
          · intro same
            have classes := congrArg (List.lookup "upnp:class") same
            rw [class_e, completeAlbum, lookup_class_direntry] at classes
            exact absurd classes (by decide)
          · rintro ⟨also_only, lacking⟩
            exact absurd (unique also_only ▸ lacking) lacks
        · exact iff_of_true rfl ⟨albid, only, lacks⟩
  | first :: second :: rest =>
      have none_only (albid : Nat) : ¬ t.OnlyAlbum s albid := by
        intro only
        have single := (only_iff albid).mpr only
        rw [found] at single
        cases (List.cons.inj single).2
      refine ⟨_, true, rfl, ?_, fun albid => ?_, ?_⟩
      · intro e member
        rw [List.mem_singleton.mp member, lookup_id_direntry]
        exact ⟨isct_direntry .., no_items "albums".toList (by decide)⟩
      · rw [List.mem_singleton]
        refine iff_of_false (fun same => ?_) fun both => none_only albid both.1
        have ids := congrArg (List.lookup "id") same
        rw [completeAlbum, lookup_id_direntry, lookup_id_direntry, Option.some.injEq,
          contentRestId, List.append_assoc, List.append_assoc, List.append_right_inj] at ids
        have lengths := congrArg List.length ids
        simp at lengths
      · refine iff_of_false nofun ?_
        rintro ⟨albid, only, -⟩
        exact none_only albid only

/-- The tracks among entries, when the others are containers. -/
theorem filter_isTrackEntry {containers tracks : List Entry}
    (all_containers : ∀ e ∈ containers, isct e = true) (all_tracks : ∀ e ∈ tracks, isct e = false) :
    (containers ++ tracks).filter isTrackEntry = tracks := by
  have none_there : containers.filter isTrackEntry = [] := by
    rw [List.filter_eq_nil_iff]
    intro e member
    simp [isTrackEntry, all_containers e member]
  have all_there : tracks.filter isTrackEntry = tracks := by
    rw [List.filter_eq_self]
    intro e member
    simp [isTrackEntry, all_tracks e member]
  rw [List.filter_append, none_there, all_there, List.nil_append]

/-- The entries of the selected tracks, as they are sorted. -/
theorem sortedEntries_spec {rows : List Track} (perm : rows.Perm (t.matching s))
    (kind pid : Str) :
    ∃ tracks sorted, (rows.map Track.docidx).mapM (t.trackEntryAs kind pid) = some tracks ∧
      sortItems tracks = some sorted ∧ (∀ e ∈ sorted, isct e = false) ∧
        ∃ listed, (t.matching s).mapM (fun row => t.trackEntryAs kind pid row.docidx) =
          some listed ∧ sorted.Perm listed := by
  obtain ⟨listed, found, types⟩ :=
    t.exists_entries (matching_subset : t.matching s ⊆ t.tracks) kind pid
  obtain ⟨tracks, made, same⟩ := MapM.exists_perm_of_perm perm.symm found
  have sorted_perm := List.mergeSort_perm tracks fun e1 e2 => cmpitems e1 e2 ≤ 0
  refine ⟨tracks, _, ?_, rfl, fun e member => ?_, listed, found, sorted_perm.trans same.symm⟩
  · rw [List.mapM_map]
    exact made
  · exact types e (same.symm.subset (sorted_perm.subset member))

theorem tagEntry_spec (pid : Str) {tt : Str} (member : tt ∈ t.tags.indextags) :
    ∃ shown, t.tagEntry pid tt = some (direntry (pid ++ "$=".toList ++ tt) pid shown) := by
  obtain ⟨shown, found⟩ := Option.isSome_iff_exists.mp (t.tabled tt member).2
  exact ⟨shown, by rw [tagEntry, found]; rfl⟩

/-- What is displayed for a selection. -/
theorem browsecontent_spec (selected : t.selectRows s = some (t.matching s))
    (junctions : ∀ tt ∈ t.tags.indextags, t.junction (t.tagTable tt) ≠ none)
    (numbers : ∀ albid, t.OnlyAlbum s albid → ∀ row ∈ t.albumRows albid, t.HasNumber row)
    (pid : Str) : ∃ entries, t.browsecontent pid s = some entries ∧ t.ListsOnce pid s entries := by
  let rows := (t.matching s).mergeSort fun row row' => row.trackno ≤ row'.trackno
  have perm : rows.Perm (t.matching s) := List.mergeSort_perm _ _
  have docids : t.docidsforsel s = some (rows.map Track.docidx) := by
    rw [docidsforsel, selected]
    rfl
  have length : (rows.map Track.docidx).length = (t.matching s).length := by
    rw [List.length_map, perm.length_eq]
  obtain ⟨albids, shown, albums_eq⟩ := subtreealbums_eq selected
  obtain ⟨subqs, tags_eq, members⟩ :=
    subtreetags_spec selected junctions (List.Subset.refl t.tags.indextags)
  obtain ⟨albums, displays, content, containers, complete, displays_iff⟩ :=
    contentAlbums_spec shown numbers pid
  have more_iff : t.MoreTags s ↔ subqs ≠ [] := by
    constructor
    · rintro ⟨tt, inside, splits⟩
      exact List.ne_nil_of_mem ((members tt).mpr ⟨inside, splits⟩)
    · intro some_tag
      obtain ⟨tt, member⟩ := List.exists_mem_of_ne_nil _ some_tag
      exact ⟨tt, (members tt).mp member⟩
  have no_items (title : Str) : direntry (pid ++ "$items".toList) pid title ∉ albums :=
    fun member => (containers _ member).2 rfl
  have not_track {e : Entry} {tracks : List Entry} (types : ∀ e ∈ tracks, isct e = false)
      (type : isct e = true) : e ∉ tracks := fun member => by
    rw [types e member] at type
    cases type
  unfold browsecontent
  rw [docids, albums_eq, tags_eq]
  simp only [bind, Option.bind_some]
  rw [length, content]
  simp only [Option.bind_some]
  by_cases more : subqs ≠ []
  · rw [if_pos more]
    obtain ⟨tags, made⟩ := MapM.exists_eq_some (f := t.tagEntry pid) subqs fun tt member => by
      obtain ⟨_, made⟩ := tagEntry_spec pid ((members tt).mp member).1
      rw [made]
      exact Option.some_ne_none _
    have tag_entries : ∀ e ∈ tags, isct e = true ∧
        ∃ behind, e.lookup "id" = some (pid ++ '$' :: '=' :: behind) := by
      intro e member
      obtain ⟨tt, inside, made_tt⟩ := MapM.mem_of_eq_some made member
      obtain ⟨_, same⟩ := tagEntry_spec pid ((members tt).mp inside).1
      cases made_tt.symm.trans same
      exact ⟨isct_direntry .., tt, by rw [lookup_id_direntry]; simp⟩
    have other_id {id title : Str} (behind : Str) (same_id : id = pid ++ '$' :: behind)
        (other : behind.head? ≠ some '=') : direntry id pid title ∉ tags := by
      intro member
      obtain ⟨-, tt, tag_id⟩ := tag_entries _ member
      rw [lookup_id_direntry, same_id, Option.some.injEq, List.append_right_inj] at tag_id
      rw [(List.cons.inj tag_id).2] at other
      exact other rfl
    have no_items_tag (title : Str) : direntry (pid ++ "$items".toList) pid title ∉ tags :=
      other_id "items".toList rfl (by decide)
    rw [made]
    refine ⟨_, rfl, ⟨fun title => ?_, fun albid => ?_, fun none_more => ?_, fun _ e member => ?_⟩⟩
    · rw [List.mem_append, List.mem_cons, or_iff_right (no_items title),
        or_iff_left (no_items_tag title), more_iff, and_iff_right more]
      constructor
      · intro same
        exact Option.some.inj (congrArg (List.lookup "tt") same)
      · rintro rfl
        rfl
    · rw [List.mem_append, List.mem_cons, complete]
      refine or_iff_left ?_
      rintro (same | inside)
      · have ids := congrArg (List.lookup "id") same
        rw [completeAlbum, lookup_id_direntry, lookup_id_direntry, Option.some.injEq, contentRestId,
          List.append_assoc, List.append_assoc, List.append_right_inj] at ids
        have heads : some 'a' = some 'i' := congrArg (fun text => (List.tail text).head?) ids
        exact absurd heads (by decide)
      · refine other_id ("albums$".toList ++ Text.str albid ++ "$showca".toList) ?_ (by simp) inside
        simp [contentRestId]
    · exact absurd (more_iff.mpr more) none_more
    · rcases List.mem_append.mp member with inside | inside
      · exact (containers e inside).1
      · rcases List.mem_cons.mp inside with rfl | inside
        · exact isct_direntry ..
        · exact (tag_entries e inside).1
  · have none_more : ¬ t.MoreTags s := fun has_more => more (more_iff.mp has_more)
    rw [if_neg more]
    cases displays with
    | true =>
        obtain ⟨tracks, sorted, made, in_order, types, listed, found, same⟩ :=
          sortedEntries_spec perm "$*i".toList pid
        rw [if_pos rfl, made]
        simp only [Option.bind_some, in_order]
        refine ⟨_, rfl, ⟨fun title => ?_, fun albid => ?_, fun _ _ => ?_, fun other => ?_⟩⟩
        · refine iff_of_false (fun member => ?_) fun both => none_more both.1
          rcases List.mem_append.mp member with inside | inside
          · exact no_items title inside
          · exact not_track types (isct_direntry ..) inside
        · rw [List.mem_append, complete]
          exact or_iff_left (not_track types (isct_direntry ..))
        · refine ⟨listed, found, ?_⟩
          rwa [filter_isTrackEntry (fun e member => (containers e member).1) types]
        · rcases other with has_more | whole
          · exact absurd has_more none_more
          · cases displays_iff.mpr whole
    | false =>
        rw [if_neg Bool.false_ne_true]
        refine ⟨_, rfl, ⟨fun title => ?_, complete, fun _ all_lack => ?_, fun _ e member => ?_⟩⟩
        · exact iff_of_false (no_items title) fun both => none_more both.1
        · obtain ⟨albid, only, whole⟩ := displays_iff.mp rfl
          exact absurd (all_lack albid only) whole
        · exact (containers e member).1

end Content

section Items

variable {t} {s : Selection}

/-- The list of the items of a selection. -/
theorem tagsbrowseitems_spec (selected : t.selectRows s = some (t.matching s))
    (numbers : ∀ albid, t.OnlyAlbum s albid → ∀ row ∈ t.albumRows albid, t.HasNumber row)
    (pid : Str) :
    ∃ entries, t.tagsbrowseitems pid s = some entries ∧ t.ItemsOnce pid s entries := by
  obtain ⟨albids, shown, albums_eq⟩ := subtreealbums_eq selected
  obtain ⟨tracks, sorted, made, in_order, types, listed, found, same⟩ :=
    sortedEntries_spec (t := t) (s := s) (List.Perm.refl _) "$i".toList pid
  have not_track {e : Entry} (type : isct e = true) : e ∉ sorted := fun member => by
    rw [types e member] at type
    cases type
  have not_complete (id : Str) : completeAlbum id pid ∉ sorted := not_track (isct_direntry ..)
  have lists {containers : List Entry} (all_containers : ∀ e ∈ containers, isct e = true) :
      t.ListsTracks "$i".toList pid s (containers ++ sorted) := by
    refine ⟨listed, found, ?_⟩
    rwa [filter_isTrackEntry all_containers types]
  have nothing_lacks (no_only : ∀ albid, ¬ (t.OnlyAlbum s albid ∧ t.Lacks s albid)) :
      t.ItemsOnce pid s ([] ++ sorted) := by
    refine ⟨fun albid => ?_, lists fun _ member => nomatch member⟩
    rw [List.nil_append]
    exact iff_of_false (not_complete _) (no_only albid)
  unfold tagsbrowseitems
  rw [selected, albums_eq]
  simp only [bind, Option.bind_some]
  have only_iff : ∀ albid, albids.dedup = [albid] ↔ t.OnlyAlbum s albid :=
    fun albid => dedup_albids_iff shown
  match single : albids.dedup with
  | [albid] =>
      have only := (only_iff albid).mp single
      have unique {other : Nat} (also_only : t.OnlyAlbum s other) : other = albid := by
        have single' := (only_iff other).mpr also_only
        rw [single] at single'
        exact (List.cons.inj single').1.symm
      obtain ⟨lacking, whole⟩ :=
        restOfAlbum_spec only (numbers albid only) (itemsRestId pid albid) pid
      dsimp only
      by_cases lacks : t.Lacks s albid
      · rw [lacking lacks, Option.bind_some, made]
        simp only [Option.bind_some, in_order]
        refine ⟨_, rfl, fun other => ?_, lists fun e member => ?_⟩
        · rw [List.mem_append, List.mem_singleton, or_iff_left (not_complete _)]
          constructor
          · intro equal
            have ids := congrArg (List.lookup "id") equal
            rw [completeAlbum, completeAlbum, lookup_id_direntry, lookup_id_direntry,
              Option.some.injEq, itemsRestId, itemsRestId, List.append_left_inj,
              List.append_right_inj] at ids
            rw [Text.str_injective ids]
            exact ⟨only, lacks⟩
          · rintro ⟨also_only, -⟩
            rw [unique also_only]
        · rw [List.mem_singleton.mp member]
          exact isct_direntry ..
      · rw [whole lacks, Option.bind_some, made]
        simp only [Option.bind_some, in_order]
        refine ⟨_, rfl, nothing_lacks ?_⟩
        rintro other ⟨also_only, other_lacks⟩
        exact lacks (unique also_only ▸ other_lacks)
  | [] =>
      simp only [made, Option.bind_some, in_order]
      refine ⟨_, rfl, nothing_lacks ?_⟩
      rintro albid ⟨only, -⟩
      have single' := (only_iff albid).mpr only
      rw [single] at single'
      cases single'
  | first :: second :: rest =>
      simp only [made, Option.bind_some, in_order]
      refine ⟨_, rfl, nothing_lacks ?_⟩
      rintro albid ⟨only, -⟩
      have single' := (only_iff albid).mpr only
      rw [single] at single'
      cases (List.cons.inj single').2

end Items

section Counting

variable {t}

/-- The selection of a path is the tracks with all its values. -/
theorem selectRows_path
    (distinct : ∀ tb pairs, t.junctions (junctb tb) = some pairs → pairs.Nodup)
    (table : t.tags.indextags ≠ [] → t.table ≠ none)
    (junctions : ∀ tt ∈ t.tags.indextags, t.junction (t.tagTable tt) ≠ none)
    {path : List (Str × Nat)} (is_path : t.IsPath path) (folder : Str) :
    t.selectRows (t.selection folder path) = some (t.matching (t.selection folder path)) := by
  have has_table : t.table ≠ none := by
    obtain ⟨choice, member⟩ := List.exists_mem_of_ne_nil _ is_path.some_choice
    exact table (List.ne_nil_of_mem (is_path.tags choice member))
  refine selectRows_eq distinct has_table ?_ ?_ ?_
  · intro choice member
    obtain ⟨chosen, inside, rfl⟩ := List.mem_map.mp member
    exact junctions _ (is_path.tags chosen inside)
  · have apart := is_path.apart
    rwa [selection, List.map_map]
  · intro choice member
    obtain ⟨chosen, inside, rfl⟩ := List.mem_map.mp member
    exact is_path.fits chosen inside

/-- Each track is counted and listed once exactly when no junction table holds a row twice and the
tree can be browsed. -/
theorem countsOnce_iff_browsable :
    t.CountsOnce ↔
      (∀ tb pairs, t.junctions (junctb tb) = some pairs → pairs.Nodup) ∧ t.Browsable := by
  constructor
  · rintro ⟨distinct, listed, -⟩
    have selected {path : List (Str × Nat)} (is_path : t.IsPath path) (folder : Str) :
        ∃ rows, t.selectRows (t.selection folder path) = some rows := by
      obtain ⟨entries, found, -⟩ := listed folder path is_path []
      rw [(tagsbrowse_qpath is_path.tags [] folder).1] at found
      obtain ⟨docids, has_docids, -⟩ := Option.bind_eq_some_iff.mp found
      obtain ⟨rows, has_rows, -⟩ := Option.map_eq_some_iff.mp has_docids
      exact ⟨rows, has_rows⟩
    have one_choice {tt : Str} (member : tt ∈ t.tags.indextags) : t.IsPath [(tt, 0)] := by
      refine ⟨by simp, ?_, ?_, by simp⟩
      · rw [List.forall_mem_singleton]
        exact member
      · rw [List.forall_mem_singleton]
        have zero_fits : fitsInteger ((0 : Nat) : Int) = true := by decide
        exact zero_fits
    have there {tt : Str} (member : tt ∈ t.tags.indextags) :
        t.table ≠ none ∧ t.junction (t.tagTable tt) ≠ none := by
      obtain ⟨rows, found⟩ := selected (one_choice member) []
      obtain ⟨table, junctions⟩ := there_of_selectRows found
      exact ⟨table, junctions _ List.mem_cons_self⟩
    have table (some_tag : t.tags.indextags ≠ []) : t.table ≠ none := by
      obtain ⟨tt, member⟩ := List.exists_mem_of_ne_nil _ some_tag
      exact (there member).1
    refine ⟨distinct, table, fun tt member => (there member).2, ?_⟩
    intro folder path is_path albid only row member
    have rows := selectRows_path distinct table (fun tt member => (there member).2) is_path folder
    obtain ⟨albids, shown, albums_eq⟩ := subtreealbums_eq rows
    obtain ⟨entries, found, -⟩ := listed folder path is_path []
    rw [(tagsbrowse_qpath is_path.tags [] folder).1] at found
    unfold browsecontent at found
    rw [albums_eq, (dedup_albids_iff shown).mpr only] at found
    simp only [bind, Option.bind_some, Option.bind_eq_some_iff] at found
    obtain ⟨docids, -, subqs, -, content, has_content, -⟩ := found
    unfold contentAlbums restOfAlbum at has_content
    simp only [bind, Option.bind_assoc, Option.bind_eq_some_iff] at has_content
    obtain ⟨tlist, has_tlist, -⟩ := has_content
    exact hasNumber_of_trackentriesforalbum (displayed_of_onlyAlbum only) has_tlist member
  · rintro ⟨distinct, table, junctions, numbers⟩
    refine ⟨distinct, fun folder path is_path pid => ?_, fun folder path is_path pid => ?_⟩
    · rw [(tagsbrowse_qpath is_path.tags pid folder).1]
      exact browsecontent_spec (selectRows_path distinct table junctions is_path folder) junctions
        (numbers folder path is_path) pid
    · rw [(tagsbrowse_qpath is_path.tags pid folder).2]
      exact tagsbrowseitems_spec (selectRows_path distinct table junctions is_path folder)
        (numbers folder path is_path) pid

end Counting

end TagTree

section Builds

variable {env : Env} {conf : TagConf} {earlier : List Str} {rcldocs : List Doc} {tags : Tags}
  {db : Db}

/-- After a build, each track is counted and listed once exactly when nothing is read twice of any
document and the tree can be browsed. -/
theorem countsOnce_iff (lower : Str → Str)
    (made : recolltosql env conf (tablesAfter conf earlier alltagtotable) rcldocs =
      some (tags, db)) :
    (TagTree.ofTables lower made).CountsOnce ↔
      (∀ doc ∈ rcldocs, isTrack doc → ∀ nm ∈ configured conf,
          ReadsOnce conf (tablesAfter conf earlier alltagtotable) doc nm) ∧
        (TagTree.ofTables lower made).Browsable := by
  rw [TagTree.countsOnce_iff_browsable, ← (built_of_recolltosql made).nodup_iff]
  exact Iff.rfl

/-- A track with these genres. -/
def genresTrack (genres : String) : Doc :=
  docAt "audio/flac" "/m/a/1.flac" [("genre", genres), ("tracknumber", "1/9")]

theorem countsOnce_twoGenres :
    ∃ (tags : Tags) (db : Db) (made : recolltosql (bareEnv []) plainTags
        (tablesAfter plainTags [] alltagtotable) [genresTrack "Jazz | Blues"] = some (tags, db)),
      (TagTree.ofTables id made).CountsOnce := by
  obtain ⟨⟨tags, db⟩, made⟩ : ∃ tables, recolltosql (bareEnv []) plainTags
      (tablesAfter plainTags [] alltagtotable) [genresTrack "Jazz | Blues"] = some tables :=
    Option.isSome_iff_exists.mp (by decide)
  refine ⟨tags, db, made, (countsOnce_iff id made).mpr ⟨?_, ?_, ?_, ?_⟩⟩
  · intro doc member _ nm inside
    rw [List.mem_singleton.mp member]
    have once : ∀ nm ∈ configured plainTags,
        let tb := tableOf plainTags alltagtotable nm
        let values := tagValues (genresTrack "Jazz | Blues") (rclfield tb)
        values = [] ∨ ((configured plainTags).map (tableOf plainTags alltagtotable)).count tb = 1 ∧
          values.Nodup := by decide
    exact once nm inside
  · intro _
    have tracks : (recolltosql (bareEnv []) plainTags (tablesAfter plainTags [] alltagtotable)
        [genresTrack "Jazz | Blues"]).map (fun tables => tables.2.tracks.isSome) = some true := by
      decide
    rw [made, Option.map_some, Option.some.injEq] at tracks
    exact Option.isSome_iff_ne_none.mp tracks
  · have junctions : (recolltosql (bareEnv []) plainTags (tablesAfter plainTags [] alltagtotable)
        [genresTrack "Jazz | Blues"]).map (fun tables => tables.1.indextags.all fun tt =>
          (tables.2.junctions (junctb ((tables.1.tagtotable.lookup tt).getD []))).isSome) =
            some true := by
      decide
    rw [made, Option.map_some, Option.some.injEq, List.all_eq_true] at junctions
    intro tt member lacking
    have there := junctions tt member
    rw [← Option.isSome_map (f := fun pairs : List (Nat × Nat) =>
      pairs.map fun pair => (pair.1, (pair.2 : Int)))] at there
    exact Option.isSome_iff_ne_none.mp there lacking
  · intro folder path _ albid _ row member
    obtain ⟨doc, there, -⟩ :=
      (TagTree.ofTables id made).listable row (List.mem_of_mem_filter member)
    refine ⟨doc, there, ?_⟩
    rw [List.mem_singleton.mp (List.mem_of_getElem? there)]
    decide

/-- A genre which is there twice makes two rows. -/
theorem not_countsOnce_sameGenre : ¬ ∀ (lower : Str → Str) (env : Env) (conf : TagConf)
    (earlier : List Str) (rcldocs : List Doc) (tags : Tags) (db : Db)
    (made : recolltosql env conf (tablesAfter conf earlier alltagtotable) rcldocs =
      some (tags, db)), (TagTree.ofTables lower made).CountsOnce := by
  intro claim
  obtain ⟨⟨tags, db⟩, made⟩ : ∃ tables, recolltosql (bareEnv []) plainTags
      (tablesAfter plainTags [] alltagtotable) [genresTrack "Jazz | Jazz"] = some tables :=
    Option.isSome_iff_exists.mp (by decide)
  have rows : (recolltosql (bareEnv []) plainTags (tablesAfter plainTags [] alltagtotable)
      [genresTrack "Jazz | Jazz"]).map (fun tables => tables.2.junctions (junctb "genre".toList)) =
        some (some [(0, 1), (0, 1)]) := by
    decide
  rw [made, Option.map_some, Option.some.injEq] at rows
  have distinct := (claim id _ _ _ _ tags db made).distinct "genre".toList _ rows
  exact absurd distinct (by decide)

end Builds

end Upmpdcli.Uprcl
