import Upmpdcli.Cdplugins.Uprcl.TagsCreateComplete
import Upmpdcli.Lib.Fold

set_option autoImplicit false

/- When no junction table holds a value of a document twice. -/
namespace Upmpdcli.Uprcl

section Numbered

/-- The values of a table are distinct, and no row points to the id zero. -/
structure Numbered (db : Db) : Prop where
  values : ∀ tb values, db.values tb = some values → values.Nodup
  rows : ∀ name pairs, db.junctions name = some pairs → ∀ pair ∈ pairs, pair.2 ≠ 0

theorem Numbered.emptied {db : Db} (numbered : Numbered db) (tgnm : Str) :
    Numbered (emptied db tgnm) where
  values tb values there := by
    rw [values_emptied] at there
    split at there
    · cases there
    · split at there
      · cases there
        exact List.nodup_nil
      · exact numbered.values tb values there
  rows name pairs there := by
    rw [junctions_emptied] at there
    split at there
    · cases there
      exact nofun
    · split at there
      · cases there
      · exact numbered.rows name pairs there

theorem numbered_created (names : List Str) : Numbered (names.foldl emptied emptyDb) := by
  induction names using List.reverseRecOn with
  | nil => exact ⟨fun _ _ there => (nomatch there), fun _ _ there => (nomatch there)⟩
  | append_singleton names t ih =>
      rw [List.foldl_append, List.foldl_cons, List.foldl_nil]
      exact ih.emptied t

theorem Numbered.auxtableinsert {db db' : Db} (numbered : Numbered db) {tb value : Str}
    {rowid : Nat} (inserted : auxtableinsert db tb value = some (db', rowid)) : Numbered db' := by
  obtain ⟨values, values', has_values, -, grown, rfl⟩ := auxtableinsert_spec inserted
  refine ⟨fun other found there => ?_, numbered.rows⟩
  dsimp only at there
  rw [Function.update_apply] at there
  split at there
  · cases there
    have distinct := numbered.values tb values has_values
    rw [grown]
    split
    · exact distinct
    · rename_i new
      exact List.nodup_append.mpr ⟨distinct, List.nodup_singleton value,
        fun other inside last is_last same => new (by
          rw [List.mem_singleton] at is_last
          rwa [← is_last, ← same])⟩
  · exact numbered.values other found there

theorem Numbered.insertValue {db db' : Db} (numbered : Numbered db) {docidx rowid : Nat}
    {tb value : Str} (inserted : insertValue docidx tb db value = some (db', rowid)) :
    Numbered db' := by
  simp only [Uprcl.insertValue, bind, Option.bind_eq_some_iff] at inserted
  obtain ⟨⟨between, id⟩, first, pairs, has_pairs, same⟩ := inserted
  have kept := numbered.auxtableinsert first
  obtain ⟨_, _, -, ⟨place, id_eq, -⟩, -, -⟩ := auxtableinsert_spec first
  cases same
  refine ⟨kept.values, fun name found there => ?_⟩
  dsimp only at there
  rw [Function.update_apply] at there
  split at there
  · cases there
    intro pair member
    rcases List.mem_append.mp member with old | new
    · exact kept.rows _ pairs has_pairs pair old
    · rw [List.mem_singleton.mp new]
      dsimp only
      omega
  · exact kept.rows name found there

theorem Numbered.insertValues {db db' : Db} (numbered : Numbered db) {docidx : Nat} {tb : Str}
    {texts : List Str} {rowids : List Nat}
    (inserted : insertValues docidx tb texts db = some (db', rowids)) : Numbered db' := by
  induction texts generalizing db rowids with
  | nil =>
      cases inserted
      exact numbered
  | cons value rest ih =>
      simp only [Uprcl.insertValues, bind, Option.bind_eq_some_iff] at inserted
      obtain ⟨⟨between, rowid⟩, first, ⟨last, behind⟩, later, same⟩ := inserted
      cases same
      exact ih (numbered.insertValue first) later

theorem Numbered.insertTag {db db' : Db} (numbered : Numbered db) {docidx album_id : Nat}
    {doc : Doc} {tag : Str × Str}
    (inserted : insertTag docidx album_id doc db tag = some db') : Numbered db' := by
  simp only [Uprcl.insertTag, bind, Option.bind_eq_some_iff] at inserted
  obtain ⟨⟨between, rowids⟩, values, last⟩ := inserted
  have kept := numbered.insertValues values
  dsimp only at last
  split at last
  · cases last
    exact ⟨kept.values, kept.rows⟩
  · cases last
    exact kept

theorem Numbered.maybecreatealbum {env : Env} {doc : Doc} {db db' : Db} {album_id : Nat}
    (numbered : Numbered db) (created : maybecreatealbum env db doc = some (db', album_id)) :
    Numbered db' := by
  simp only [Uprcl.maybecreatealbum, bind, Option.bind_eq_some_iff] at created
  obtain ⟨key, -, ⟨between, artist_id⟩, artist, last⟩ := created
  have kept : Numbered between := by
    unfold albumArtist at artist
    split at artist
    · cases artist
      exact numbered
    · obtain ⟨_, inserted, same⟩ := Option.map_eq_some_iff.mp artist
      cases same
      exact numbered.auxtableinsert inserted
  simp only [Option.ite_none_left_eq_some, Option.bind_eq_some_iff] at last
  obtain ⟨-, albums, -, last⟩ := last
  split at last
  · cases last
    exact kept
  · cases last
    exact ⟨kept.values, kept.rows⟩

theorem Numbered.addDoc {env : Env} {tags : Tags} {doc : Doc} {docidx : Nat} {db db' : Db}
    (numbered : Numbered db) (added : addDoc env tags db doc docidx = some db') :
    Numbered db' := by
  unfold Uprcl.addDoc at added
  split at added
  · simp only [bind, Option.bind_eq_some_iff] at added
    obtain ⟨⟨made, album_id⟩, created, tagged, inserted, last⟩ := added
    simp only [Option.ite_none_left_eq_some, Option.bind_eq_some_iff] at last
    obtain ⟨-, tracks, -, same⟩ := last
    cases same
    have kept : Numbered tagged :=
      Fold.foldlM_keeps (I := Numbered) (fun _ _ _ before turn => before.insertTag turn)
        (numbered.maybecreatealbum created) inserted
    exact ⟨kept.values, kept.rows⟩
  · cases added
    exact numbered

theorem Numbered.addDocs {env : Env} {tags : Tags} {docs : List Doc} {docidx : Nat} {db db' : Db}
    (numbered : Numbered db) (added : addDocs env tags docs docidx db = some db') :
    Numbered db' := by
  induction docs generalizing docidx db with
  | nil =>
      cases added
      exact numbered
  | cons doc rest ih =>
      obtain ⟨between, first, later⟩ := Option.bind_eq_some_iff.mp added
      exact ih (numbered.addDoc first) later

end Numbered

section Distinct

/-- Copies of a list have no element twice when there is nothing, or one copy of distinct ones. -/
theorem nodup_flatten_replicate {α : Type} {n : Nat} (some_copy : 0 < n) (items : List α) :
    (List.replicate n items).flatten.Nodup ↔ items = [] ∨ n = 1 ∧ items.Nodup := by
  match n, some_copy with
  | 1, _ =>
      rw [List.replicate_one, List.flatten_singleton]
      constructor
      · exact fun distinct => .inr ⟨rfl, distinct⟩
      · rintro (rfl | ⟨-, distinct⟩)
        · exact List.nodup_nil
        · exact distinct
  | n + 2, _ =>
      rw [List.replicate_succ, List.replicate_succ, List.flatten_cons, List.flatten_cons,
        List.nodup_append]
      constructor
      · rintro ⟨-, -, apart⟩
        left
        cases items with
        | nil => rfl
        | cons first rest =>
            exact absurd rfl (apart first List.mem_cons_self first
              (List.mem_append_left _ List.mem_cons_self))
      · rintro (rfl | ⟨one, -⟩)
        · simp
        · omega

variable {conf : TagConf} {tables : List (Str × Str)}

/-- Nothing of a tag is read twice of a document: it has no values for the tag, or the table of the
tag is configured once and the values are distinct. -/
def ReadsOnce (conf : TagConf) (tables : List (Str × Str)) (doc : Doc) (nm : Str) : Prop :=
  let tb := tableOf conf tables nm
  let values := tagValues doc (rclfield tb)
  values = [] ∨ ((configured conf).map (tableOf conf tables)).count tb = 1 ∧ values.Nodup

/-- The rows of a document are distinct when nothing is read of it twice. -/
theorem nodup_docPairs_iff (doc : Doc) (docidx : Nat) :
    (∀ tb, (docPairs (preparedTags conf tables).tabtorclfield docidx doc tb).Nodup) ↔
      (isTrack doc → ∀ nm ∈ configured conf, ReadsOnce conf tables doc nm) := by
  have injective : Function.Injective fun value : Str => (docidx, value) :=
    fun value value' same => (Prod.mk.inj same).2
  have table (tb : Str) (track : isTrack doc) :
      docPairs (preparedTags conf tables).tabtorclfield docidx doc tb =
        ((List.replicate (((configured conf).map (tableOf conf tables)).count tb)
          (tagValues doc (rclfield tb))).flatten).map fun value => (docidx, value) := by
    unfold docPairs
    rw [if_pos track, filter_tabtorclfield, List.flatMap_def, List.map_replicate,
      List.map_flatten, List.map_replicate]
  constructor
  · intro distinct track nm inside
    have configured_once : 0 < ((configured conf).map (tableOf conf tables)).count
        (tableOf conf tables nm) := List.count_pos_iff.mpr (List.mem_map_of_mem inside)
    have rows := distinct (tableOf conf tables nm)
    rw [table _ track, List.nodup_map_iff injective,
      nodup_flatten_replicate configured_once] at rows
    exact rows
  · intro once tb
    by_cases track : isTrack doc
    · rw [table tb track, List.nodup_map_iff injective]
      by_cases inside : tb ∈ (configured conf).map (tableOf conf tables)
      · obtain ⟨nm, named, rfl⟩ := List.mem_map.mp inside
        exact (nodup_flatten_replicate (List.count_pos_iff.mpr inside) _).mpr (once track nm named)
      · rw [List.count_eq_zero_of_not_mem inside]
        exact List.nodup_nil
    · unfold docPairs
      rw [if_neg track]
      exact List.nodup_nil

theorem le_of_mem_docsPairs {tabtorclfield : List (Str × Str)} {docidx : Nat} {docs : List Doc}
    {tb : Str} {pair : Nat × Str} (member : pair ∈ docsPairs tabtorclfield docidx docs tb) :
    docidx ≤ pair.1 := by
  by_contra before
  have none_there := filter_docsPairs_before tabtorclfield (Nat.lt_of_not_le before) docs tb
  rw [List.filter_eq_nil_iff] at none_there
  exact none_there pair member (by simp)

/-- The rows of different documents are different. -/
theorem nodup_docsPairs_iff (tabtorclfield : List (Str × Str)) (docidx : Nat) (docs : List Doc)
    (tb : Str) :
    (docsPairs tabtorclfield docidx docs tb).Nodup ↔
      ∀ (i : Nat) (doc : Doc), docs[i]? = some doc →
        (docPairs tabtorclfield (docidx + i) doc tb).Nodup := by
  induction docs generalizing docidx with
  | nil => simp [docsPairs]
  | cons first rest ih =>
      rw [docsPairs, List.nodup_append, ih (docidx + 1)]
      constructor
      · rintro ⟨own, others, -⟩ i doc there
        cases i with
        | zero =>
            cases there
            exact own
        | succ i =>
            have later := others i doc there
            rwa [Nat.add_right_comm, Nat.add_assoc] at later
      · intro all
        refine ⟨all 0 first rfl, fun i doc there => ?_, fun pair own other behind same => ?_⟩
        · have later := all (i + 1) doc there
          rwa [← Nat.add_assoc, Nat.add_right_comm] at later
        · have place := fst_docPairs own
          have later := le_of_mem_docsPairs behind
          rw [← same] at later
          omega

/-- The rows of a junction table are distinct when what they were made of is. -/
theorem Holds.nodup_iff {db : Db} (numbered : Numbered db) {tb : Str} {pairs : List (Nat × Str)}
    (holds : Holds db tb pairs) :
    (∀ rows, db.junctions (junctb tb) = some rows → rows.Nodup) ↔ pairs.Nodup := by
  obtain ⟨values, rows, has_values, has_rows, same⟩ := holds
  have only : (∀ rows', db.junctions (junctb tb) = some rows' → rows'.Nodup) ↔ rows.Nodup := by
    rw [has_rows]
    simp
  have injective : Function.Injective fun pair : Nat × Str => (pair.1, some pair.2) := by
    intro pair pair' equal
    rw [Prod.mk.injEq, Option.some.injEq] at equal
    exact Prod.ext equal.1 equal.2
  rw [only, ← List.nodup_map_iff injective, ← same]
  refine ⟨fun distinct => distinct.map_on ?_, List.Nodup.of_map _⟩
  intro row member row' member' equal
  rw [Prod.mk.injEq] at equal
  have some_value : (row.1, values[row.2 - 1]?) ∈ pairs.map fun pair => (pair.1, some pair.2) := by
    rw [← same]
    exact List.mem_map_of_mem (f := fun row : Nat × Nat => (row.1, values[row.2 - 1]?)) member
  obtain ⟨pair, -, found⟩ := List.mem_map.mp some_value
  rw [Prod.mk.injEq] at found
  have place := (List.getElem?_inj (List.getElem?_eq_some_iff.mp found.2.symm).1
    (numbered.values tb values has_values)).mp equal.2
  have above := numbered.rows _ rows has_rows row member
  have above' := numbered.rows _ rows has_rows row' member'
  exact Prod.ext equal.1 (by omega)

end Distinct

section Build

variable {env : Env} {conf : TagConf} {earlier : List Str} {rcldocs : List Doc} {tags : Tags}
  {db : Db}

/-- What a build leaves in the tables of the tags. -/
structure Built (conf : TagConf) (tables : List (Str × Str)) (rcldocs : List Doc) (tags : Tags)
    (db : Db) : Prop where
  prepared : tags = preparedTags conf tables
  numbered : Numbered db
  holds : ∀ tb, Stands (createdTables conf tables) tb →
    Holds db tb (docsPairs tags.tabtorclfield 0 rcldocs tb)
  gone : ∀ tb, ¬ Stands (createdTables conf tables) tb → Gone db tb
  read : ∀ doc ∈ rcldocs, isTrack doc → ∀ tag ∈ tags.tabtorclfield,
    tagValues doc tag.2 = [] ∨ Stands (createdTables conf tables) tag.1
  artist : db.values "artist".toList ≠ none

theorem built_of_recolltosql
    (made : recolltosql env conf (tablesAfter conf earlier alltagtotable) rcldocs =
      some (tags, db)) :
    Built conf (tablesAfter conf earlier alltagtotable) rcldocs tags db := by
  have artist := artist_created conf earlier
  generalize tablesAfter conf earlier alltagtotable = tables at artist made ⊢
  rw [recolltosql_created] at made
  split at made
  · have kept : "albums".toList ∉ createdTables conf tables := by
      intro dropped
      rw [buildFrom_without_albums (by rw [created_albums, if_pos dropped])] at made
      cases made
    have walked := walked_created artist kept
    have no_rows : ((createdTables conf tables).foldl emptied emptyDb).tracks.getD [] = [] := by
      rw [created_tracks]
      split <;> rfl
    by_cases admissible : ∀ doc ∈ rcldocs, Admissible env (Stands (createdTables conf tables))
        (((createdTables conf tables).foldl emptied emptyDb).tracks ≠ none)
        (preparedTags conf tables).tabtorclfield doc
    · obtain ⟨db', built, holds, has_artist⟩ := buildFrom_admissible walked no_rows admissible
      have numbered : Numbered db := by
        simp only [buildFrom, bind, Option.bind_eq_some_iff] at made
        obtain ⟨⟨db₁, various⟩, inserted, db₂, added, albums, -, covered, -, same⟩ := made
        cases same
        have walked_over := ((numbered_created (createdTables conf tables)).auxtableinsert
          inserted).addDocs added
        exact ⟨walked_over.values, walked_over.rows⟩
      cases built.symm.trans made
      exact ⟨rfl, numbered, fun tb => (holds tb).1, fun tb => (holds tb).2,
        fun doc member track => (admissible doc member track).2.2.2, has_artist⟩
    · push Not at admissible
      rw [buildFrom_inadmissible walked admissible] at made
      cases made
  · cases made

/-- No junction table of a build holds a row twice exactly when nothing is read twice of any
document. -/
theorem Built.nodup_iff {tables : List (Str × Str)}
    (built : Built conf tables rcldocs tags db) :
    (∀ tb rows, db.junctions (junctb tb) = some rows → rows.Nodup) ↔
      ∀ doc ∈ rcldocs, isTrack doc → ∀ nm ∈ configured conf, ReadsOnce conf tables doc nm := by
  have table (tb : Str) : (∀ rows, db.junctions (junctb tb) = some rows → rows.Nodup) ↔
      ∀ (i : Nat) (doc : Doc), rcldocs[i]? = some doc →
        (docPairs tags.tabtorclfield (0 + i) doc tb).Nodup := by
    by_cases stands : Stands (createdTables conf tables) tb
    · rw [(built.holds tb stands).nodup_iff built.numbered, nodup_docsPairs_iff]
    · refine iff_of_true (fun rows there => ?_) fun i doc there => ?_
      · rcases built.gone tb stands with none_there | ⟨-, empty⟩
        · rw [none_there] at there
          cases there
        · rw [empty] at there
          cases there
          exact List.nodup_nil
      · unfold docPairs
        split
        · rename_i track
          have nothing : ((tags.tabtorclfield.filter fun tag => tag.1 = tb).flatMap fun tag =>
              (tagValues doc tag.2).map fun value => (0 + i, value)) = [] := by
            rw [List.flatMap_eq_nil_iff]
            intro tag member
            rw [List.mem_filter, decide_eq_true_eq] at member
            rcases built.read doc (List.mem_of_getElem? there) track tag member.1 with none | kept
            · rw [none]
              rfl
            · exact absurd (member.2 ▸ kept) stands
          rw [nothing]
          exact List.nodup_nil
        · exact List.nodup_nil
  rw [forall_congr' table]
  constructor
  · intro distinct doc member
    obtain ⟨i, there⟩ := List.mem_iff_getElem?.mp member
    refine (nodup_docPairs_iff doc (0 + i)).mp fun tb => ?_
    rw [← built.prepared]
    exact distinct tb i doc there
  · intro once tb i doc there
    rw [built.prepared]
    exact (nodup_docPairs_iff doc (0 + i)).mpr (once doc (List.mem_of_getElem? there)) tb

end Build

end Upmpdcli.Uprcl
