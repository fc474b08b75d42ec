import Upmpdcli.Cdplugins.Uprcl.TagsCreate

set_option autoImplicit false

/- Which tables are there when the documents are walked over. -/
namespace Upmpdcli.Uprcl

/-- The tags of the configuration, those of the tree and those of the items. -/
def configured (conf : TagConf) : List Str := (shownTags conf).map Prod.fst ++ conf.itemtags

/-- `_alltagtotable` after a walk over these tags. -/
def tablesAfter (conf : TagConf) : List Str → List (Str × Str) → List (Str × Str)
  | [], tables => tables
  | nm :: rest, tables =>
      tablesAfter conf rest
        (if (tables.lookup nm).isSome then tables else Dict.set tables nm (conf.lower nm))

/-- The tables which are made for tags without one. -/
def newTables (conf : TagConf) : List Str → List (Str × Str) → List Str
  | [], _ => []
  | nm :: rest, tables =>
      if (tables.lookup nm).isSome then newTables conf rest tables
      else conf.lower nm :: newTables conf rest (Dict.set tables nm (conf.lower nm))

/-- The table of a tag. -/
def tableOf (conf : TagConf) (tables : List (Str × Str)) (nm : Str) : Str :=
  (tables.lookup nm).getD (conf.lower nm)

/-- All the tables which a build creates, in order. -/
def createdTables (conf : TagConf) (tables : List (Str × Str)) : List Str :=
  tables.map Prod.snd ++ newTables conf (configured conf) tables

/-- The two tables of a tag are created, and no table which is created behind them has the name of
one of them, or has its junction table with that name. -/
def Stands (names : List Str) (tb : Str) : Prop :=
  ∃ before behind, names = before ++ tb :: behind ∧ ∀ t ∈ behind, junctb t ≠ tb ∧ t ≠ junctb tb

section Names

theorem length_junctb (tb : Str) : (junctb tb).length = tb.length + 8 := by
  unfold junctb
  simp only [List.length_append]
  show 7 + tb.length + 1 = tb.length + 8
  omega

theorem junctb_ne_self (tb : Str) : junctb tb ≠ tb := by
  intro same
  have lengths := length_junctb tb
  rw [same] at lengths
  omega

theorem junctb_inj {tb other : Str} : junctb tb = junctb other ↔ tb = other := by
  refine ⟨fun same => ?_, congrArg junctb⟩
  unfold junctb at same
  rw [List.append_cancel_right_eq] at same
  exact List.append_cancel_left same

theorem head_junctb (tb : Str) : (junctb tb).head? = some 't' := rfl

theorem junctb_ne_artist (tb : Str) : junctb tb ≠ "artist".toList := by
  intro same
  have first := head_junctb tb
  rw [same] at first
  exact absurd first (by decide)

theorem junctb_ne_albums (tb : Str) : junctb tb ≠ "albums".toList := by
  intro same
  have first := head_junctb tb
  rw [same] at first
  exact absurd first (by decide)

theorem junctb_ne_tracks (tb : Str) : junctb tb ≠ "tracks".toList := by
  intro same
  have long := length_junctb tb
  rw [same] at long
  have short : "tracks".toList.length = 6 := by decide
  omega

theorem stands_concat (names : List Str) (t tb : Str) :
    Stands (names ++ [t]) tb ↔
      tb = t ∨ Stands names tb ∧ junctb t ≠ tb ∧ t ≠ junctb tb := by
  constructor
  · rintro ⟨before, behind, whole, kept⟩
    rcases List.eq_nil_or_concat behind with rfl | ⟨behind, last, rfl⟩
    · exact .inl (List.append_inj_right' whole rfl |> List.cons.inj |>.1).symm
    · rw [List.concat_eq_append] at whole kept
      rw [← List.cons_append, ← List.append_assoc] at whole
      obtain ⟨same, last_eq⟩ := List.append_inj' whole rfl
      cases last_eq
      exact .inr ⟨⟨before, behind, same, fun t member => kept t (List.mem_append_left _ member)⟩,
        kept _ (List.mem_append_right _ List.mem_cons_self)⟩
  · rintro (rfl | ⟨⟨before, behind, rfl, kept⟩, apart⟩)
    · exact ⟨names, [], rfl, nofun⟩
    · refine ⟨before, behind ++ [t], by simp, fun other member => ?_⟩
      rcases List.mem_append.mp member with old | new
      · exact kept other old
      · rw [List.mem_singleton.mp new]
        exact apart

/-- Where no name is the one of another junction table, every table which is created stands. -/
theorem stands_of_apart {names : List Str} {tb : Str} (member : tb ∈ names)
    (apart : ∀ t ∈ names, junctb t ≠ tb ∧ t ≠ junctb tb) : Stands names tb := by
  obtain ⟨before, behind, rfl⟩ := List.append_of_mem member
  exact ⟨before, behind, rfl, fun t inside =>
    apart t (List.mem_append_right _ (List.mem_cons_of_mem _ inside))⟩

end Names

section Creation

variable {accepts : Str → Bool}

/-- The two tables of a tag, made anew. -/
def emptied (db : Db) (tgnm : Str) : Db :=
  let db := db.drop tgnm
  let db := { db with values := Function.update db.values tgnm (some []) }
  let db := db.drop (junctb tgnm)
  { db with junctions := Function.update db.junctions (junctb tgnm) (some []) }

theorem foldlM_createTagTables (names : List Str) (db : Db) :
    names.foldlM (createTagTables accepts) db =
      if names.all accepts then some (names.foldl emptied db) else none := by
  induction names generalizing db with
  | nil => rfl
  | cons name rest ih =>
      rw [List.foldlM_cons, List.all_cons, List.foldl_cons]
      unfold createTagTables
      by_cases accepted : accepts name = true
      · rw [if_pos accepted, accepted, Bool.true_and]
        exact ih _
      · rw [if_neg accepted, Bool.eq_false_iff.mpr accepted]
        rfl

theorem values_emptied (db : Db) (t tb : Str) :
    (emptied db t).values tb =
      if tb = junctb t then none else if tb = t then some [] else db.values tb := by
  simp only [emptied, Db.drop, Function.update_apply]
  split
  · rfl
  · split <;> rfl

theorem junctions_emptied (db : Db) (t name : Str) :
    (emptied db t).junctions name =
      if name = junctb t then some [] else if name = t then none else db.junctions name := by
  simp only [emptied, Db.drop, Function.update_apply]
  split
  · rfl
  · split <;> rfl

theorem albums_emptied (db : Db) (t : Str) :
    (emptied db t).albums = if t = "albums".toList then none else db.albums := by
  simp only [emptied, Db.drop, if_neg (junctb_ne_albums t)]

theorem tracks_emptied (db : Db) (t : Str) :
    (emptied db t).tracks = if t = "tracks".toList then none else db.tracks := by
  simp only [emptied, Db.drop, if_neg (junctb_ne_tracks t)]

/-- The database in which nothing has been created yet but the albums and the tracks. -/
def emptyDb : Db where
  albums := some []
  tracks := some []
  values _ := none
  junctions _ := none

/-- The tables of a tag are there if and only if they stand. -/
theorem created_stands (names : List Str) (tb : Str) :
    (Stands names tb → (names.foldl emptied emptyDb).values tb = some [] ∧
        (names.foldl emptied emptyDb).junctions (junctb tb) = some []) ∧
      (¬ Stands names tb → (names.foldl emptied emptyDb).values tb = none ∨
        (names.foldl emptied emptyDb).junctions (junctb tb) = none) := by
  induction names using List.reverseRecOn with
  | nil =>
      refine ⟨?_, fun _ => .inl rfl⟩
      rintro ⟨before, behind, whole, -⟩
      simp at whole
  | append_singleton names t ih =>
      rw [List.foldl_append, List.foldl_cons, List.foldl_nil, values_emptied, junctions_emptied,
        stands_concat]
      simp only [junctb_inj]
      by_cases same : tb = t
      · subst same
        simp [(junctb_ne_self tb).symm]
      · by_cases taken : tb = junctb t
        · simp [taken, junctb_ne_self]
        · by_cases lost : junctb tb = t
          · simp [same, lost]
          · have apart : junctb t ≠ tb ∧ t ≠ junctb tb := ⟨Ne.symm taken, Ne.symm lost⟩
            simpa only [same, taken, lost, apart, ne_eq, not_false_eq_true, and_true, false_or,
              if_false] using ih

theorem created_junctions (names : List Str) (name : Str) :
    (names.foldl emptied emptyDb).junctions name = none ∨
      (names.foldl emptied emptyDb).junctions name = some [] := by
  induction names using List.reverseRecOn with
  | nil => exact .inl rfl
  | append_singleton names t ih =>
      rw [List.foldl_append, List.foldl_cons, List.foldl_nil, junctions_emptied]
      split
      · exact .inr rfl
      · split
        · exact .inl rfl
        · exact ih

theorem created_artist {names : List Str} (member : "artist".toList ∈ names) :
    (names.foldl emptied emptyDb).values "artist".toList = some [] := by
  induction names using List.reverseRecOn with
  | nil => cases member
  | append_singleton names t ih =>
      rw [List.foldl_append, List.foldl_cons, List.foldl_nil, values_emptied,
        if_neg (junctb_ne_artist t).symm]
      split
      · rfl
      · rename_i other
        rcases List.mem_append.mp member with old | new
        · exact ih old
        · exact absurd (List.mem_singleton.mp new) other

theorem created_albums (names : List Str) :
    (names.foldl emptied emptyDb).albums = if "albums".toList ∈ names then none else some [] := by
  induction names using List.reverseRecOn with
  | nil => rfl
  | append_singleton names t ih =>
      rw [List.foldl_append, List.foldl_cons, List.foldl_nil, albums_emptied, ih]
      simp only [List.mem_append, List.mem_singleton]
      by_cases new : t = "albums".toList
      · rw [if_pos new, if_pos (.inr new.symm)]
      · rw [if_neg new]
        exact if_congr (or_iff_left (Ne.symm new)).symm rfl rfl

theorem created_tracks (names : List Str) :
    (names.foldl emptied emptyDb).tracks = if "tracks".toList ∈ names then none else some [] := by
  induction names using List.reverseRecOn with
  | nil => rfl
  | append_singleton names t ih =>
      rw [List.foldl_append, List.foldl_cons, List.foldl_nil, tracks_emptied, ih]
      simp only [List.mem_append, List.mem_singleton]
      by_cases new : t = "tracks".toList
      · rw [if_pos new, if_pos (.inr new.symm)]
      · rw [if_neg new]
        exact if_congr (or_iff_left (Ne.symm new)).symm rfl rfl

end Creation

section Configured

variable {conf : TagConf}

/-- A table which is made for one tag is not the one of another tag. -/
theorem tableOf_set {tables : List (Str × Str)} {nm : Str} (unknown : tables.lookup nm = none)
    (other : Str) :
    tableOf conf (Dict.set tables nm (conf.lower nm)) other = tableOf conf tables other := by
  unfold tableOf
  by_cases same : other = nm
  · rw [same, Dict.lookup_set_self, unknown]
    rfl
  · rw [Dict.lookup_set_of_ne same]

theorem tableOf_tablesAfter (names : List Str) (tables : List (Str × Str)) (other : Str) :
    tableOf conf (tablesAfter conf names tables) other = tableOf conf tables other := by
  induction names generalizing tables with
  | nil => rfl
  | cons nm rest ih =>
      rw [tablesAfter, ih]
      split
      · rfl
      · rename_i unknown
        exact tableOf_set (Option.not_isSome_iff_eq_none.mp unknown) other

theorem isSome_lookup_tablesAfter {names : List Str} {tables : List (Str × Str)} {nm : Str}
    (known : (tables.lookup nm).isSome ∨ nm ∈ names) :
    ((tablesAfter conf names tables).lookup nm).isSome := by
  induction names generalizing tables with
  | nil => exact known.resolve_right List.not_mem_nil
  | cons first rest ih =>
      rw [tablesAfter]
      apply ih
      by_cases same : nm = first
      · subst same
        refine .inl ?_
        split
        · assumption
        · rw [Dict.lookup_set_self]
          rfl
      · rcases known with known | member
        · refine .inl ?_
          split
          · exact known
          · rwa [Dict.lookup_set_of_ne same]
        · exact .inr ((List.mem_cons.mp member).resolve_left same)

variable (conf) in
theorem lookup_tablesAfter (names : List Str) {tables : List (Str × Str)} {nm : Str}
    (known : (tables.lookup nm).isSome ∨ nm ∈ names) :
    (tablesAfter conf names tables).lookup nm = some (tableOf conf tables nm) := by
  obtain ⟨tb, found⟩ := Option.isSome_iff_exists.mp (isSome_lookup_tablesAfter known)
  rw [← tableOf_tablesAfter names tables nm, tableOf, found]
  rfl

theorem tablesAfter_append (first second : List Str) (tables : List (Str × Str)) :
    tablesAfter conf (first ++ second) tables =
      tablesAfter conf second (tablesAfter conf first tables) := by
  induction first generalizing tables with
  | nil => rfl
  | cons nm rest ih => exact ih _

theorem newTables_append (first second : List Str) (tables : List (Str × Str)) :
    newTables conf (first ++ second) tables =
      newTables conf first tables ++ newTables conf second (tablesAfter conf first tables) := by
  induction first generalizing tables with
  | nil => rfl
  | cons nm rest ih =>
      rw [List.cons_append, newTables, newTables, tablesAfter]
      split
      · exact ih tables
      · rw [List.cons_append, ih]

theorem tablesFor_eq (names : List Str) (tables : List (Str × Str)) (db : Db) :
    tablesFor conf names tables db =
      ((newTables conf names tables).foldlM (createTagTables conf.accepts) db).map fun db =>
        (tablesAfter conf names tables, db, names.map (tableOf conf tables)) := by
  induction names generalizing tables db with
  | nil => rfl
  | cons nm rest ih =>
      rw [tablesFor, tableFor, newTables, tablesAfter, List.map_cons]
      cases found : tables.lookup nm with
      | some tb =>
          have same : tableOf conf tables nm = tb := by rw [tableOf, found]; rfl
          simp only [bind, Option.bind_some, Option.isSome_some, if_true, ih, Option.bind_map, same]
          rw [Option.map_eq_bind]
          rfl
      | none =>
          have same : tableOf conf tables nm = conf.lower nm := by rw [tableOf, found]; rfl
          have others : tableOf conf (Dict.set tables nm (conf.lower nm)) = tableOf conf tables :=
            funext (tableOf_set found)
          simp only [bind, Option.isSome_none, Bool.false_eq_true, if_false, List.foldlM_cons,
            Option.bind_map, same]
          cases createTagTables conf.accepts db (conf.lower nm) with
          | none => rfl
          | some db =>
              simp only [Option.bind_some, Function.comp_apply, ih, Option.bind_map, others]
              rw [Option.map_eq_bind]
              rfl

/-- What the walk over the tags sets. -/
def preparedTags (conf : TagConf) (tables : List (Str × Str)) : Tags where
  tables := tablesAfter conf (configured conf) tables
  indextags := (shownTags conf).map Prod.fst
  tagdisplaytag := (shownTags conf).foldl
    (fun shown tag => Dict.set shown tag.1 (if tag.2 = [] then tag.1 else tag.2)) []
  tagtotable :=
    let indextags := (shownTags conf).map Prod.fst
    (indextags.zip (indextags.map (tableOf conf tables))).foldl
      (fun tables tag => Dict.set tables tag.1 tag.2) []
  tabtorclfield := (configured conf).map fun nm =>
    (tableOf conf tables nm, rclfield (tableOf conf tables nm))

theorem prepareTags_eq (tables : List (Str × Str)) (db : Db) :
    prepareTags conf tables db =
      ((newTables conf (configured conf) tables).foldlM (createTagTables conf.accepts) db).map
        fun db => (preparedTags conf tables, db) := by
  unfold prepareTags configured
  dsimp only
  have others : tableOf conf (tablesAfter conf ((shownTags conf).map Prod.fst) tables) =
      tableOf conf tables := funext (tableOf_tablesAfter _ tables)
  rw [newTables_append, List.foldlM_append, tablesFor_eq]
  cases first : (newTables conf ((shownTags conf).map Prod.fst) tables).foldlM
      (createTagTables conf.accepts) db with
  | none => rfl
  | some db₁ =>
      simp only [bind, Option.map_some, Option.bind_some, tablesFor_eq, Option.bind_map]
      rw [Option.map_eq_bind]
      refine congrArg _ (funext fun db₂ => ?_)
      simp only [Function.comp_apply, others, pure, preparedTags, configured, tablesAfter_append,
        List.map_append, List.map_map]
      rfl

end Configured

end Upmpdcli.Uprcl
