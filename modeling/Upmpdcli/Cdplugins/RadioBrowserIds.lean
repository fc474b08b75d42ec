import Upmpdcli.Cdplugins.RadioBrowser

set_option autoImplicit false

/- What can be chosen by browsing, and what the ids of the containers and of the radios say. -/
namespace Upmpdcli.RadioBrowser

inductive Criterion
  | countrycodes
  | languages
  | tags
deriving DecidableEq

namespace Criterion

def name : Criterion → Str
  | countrycodes => "countrycodes".toList
  | languages => "languages".toList
  | tags => "tags".toList

/-- The argument of the filter. -/
def arg : Criterion → Str
  | countrycodes => "countrycode".toList
  | languages => "language".toList
  | tags => "tag".toList

theorem name_plain (c : Criterion) : '/' ∉ c.name ∧ c.name ≠ [] ∧ Html.escape c.name = c.name := by
  cases c with
  | countrycodes => decide
  | languages => decide
  | tags => decide

theorem argtrans_name (c : Criterion) : argtrans.lookup c.name = some c.arg := by
  cases c with
  | countrycodes => decide
  | languages => decide
  | tags => decide

theorem arg_injective : Function.Injective arg := by
  intro c d same
  cases c <;> cases d <;> first | rfl | exact absurd same (by decide)

end Criterion

/-- Where a selection stops: behind a value or at the root, at a criterion whose values are listed,
or at the radios. -/
inductive Ending
  | value
  | criterion (c : Criterion)
  | radios
deriving DecidableEq

def Ending.criteria : Ending → List Criterion
  | .criterion c => [c]
  | .value | .radios => []

def Ending.parts : Ending → List Str
  | .value => []
  | .criterion c => [c.name]
  | .radios => ["radios".toList]

/-- Each criterion is chosen once at most, with a value. There is no link to the radios at the
root. -/
structure Selection where
  chosen : List (Criterion × Str)
  ending : Ending
  distinct : (chosen.map Prod.fst ++ ending.criteria).Nodup
  filled : ∀ choice ∈ chosen, choice.2 ≠ []
  below : ending = .radios → chosen ≠ []

namespace Selection

/-- The id of a container: the one above it, a slash, and the name or the escaped value. -/
def objid (sel : Selection) : Str :=
  sel.ending.parts.foldl (fun objid name => objid ++ '/' :: name)
    (sel.chosen.foldl
      (fun objid choice => objid ++ '/' :: choice.1.name ++ '/' :: Html.escape choice.2) myprefix)

/-- What `_pathtocrits` should return. -/
def crits (sel : Selection) : Crits where
  crit :=
    match sel.ending with
    | .value => sel.chosen.getLast?.map fun choice => choice.1.name
    | .criterion c => some c.name
    | .radios => some "radios".toList
  value :=
    match sel.ending with
    | .value => sel.chosen.getLast?.map Prod.snd
    | .criterion _ | .radios => none
  setcrits := sel.chosen.map fun choice => choice.1.name
  filterargs := sel.chosen.map fun choice => (choice.1.arg, choice.2)

/-- The criteria and the values, as they are chosen. -/
def parts (sel : Selection) : List Str :=
  sel.chosen.flatMap (fun choice => [choice.1.name, choice.2]) ++ sel.ending.parts

/-- No value has a slash. -/
def Slashless (sel : Selection) : Prop := ∀ choice ∈ sel.chosen, '/' ∉ choice.2

variable (sel : Selection)

theorem escape_ending {part : Str} (member : part ∈ sel.ending.parts) :
    Html.escape part = part ∧ '/' ∉ part := by
  unfold Ending.parts at member
  cases here : sel.ending with
  | value =>
      rw [here] at member
      cases member
  | criterion c =>
      rw [here, List.mem_singleton] at member
      rw [member]
      exact ⟨c.name_plain.2.2, c.name_plain.1⟩
  | radios =>
      rw [here, List.mem_singleton] at member
      rw [member]
      decide

theorem objid_eq :
    sel.objid = myprefix ++ sel.parts.flatMap fun part => '/' :: Html.escape part := by
  have chosen : ∀ (choices : List (Criterion × Str)) (objid : Str), choices.foldl
      (fun objid choice => objid ++ '/' :: choice.1.name ++ '/' :: Html.escape choice.2) objid =
        objid ++ (choices.flatMap fun choice => [choice.1.name, choice.2]).flatMap
          fun part => '/' :: Html.escape part := by
    intro choices
    induction choices with
    | nil => simp
    | cons choice rest ih =>
        intro objid
        rw [List.foldl_cons, ih]
        simp [choice.1.name_plain.2.2]
  have ending : ∀ (names : List Str) (objid : Str),
      (∀ name ∈ names, Html.escape name = name) →
      names.foldl (fun objid name => objid ++ '/' :: name) objid =
        objid ++ names.flatMap fun part => '/' :: Html.escape part := by
    intro names
    induction names with
    | nil => simp
    | cons name rest ih =>
        intro objid plain
        rw [List.foldl_cons, ih _ fun other member => plain other (List.mem_cons_of_mem _ member)]
        simp [plain name List.mem_cons_self]
  rw [objid, chosen, ending _ _ fun name member => (sel.escape_ending member).1, parts,
    List.flatMap_append, List.append_assoc]

/-- The names and the values behind the root, with a slash between them. -/
def joined (sel : Selection) : Str := ['/'].intercalate sel.parts

theorem flatMap_slash (part : Str) (parts : List Str) :
    ((part :: parts).flatMap fun part => '/' :: Html.escape part) =
      '/' :: Html.escape (['/'].intercalate (part :: parts)) := by
  induction parts generalizing part with
  | nil => simp
  | cons next rest ih =>
      rw [List.flatMap_cons, ih, List.intercalate_cons_cons, Html.escape_append,
        Html.escape_append]
      simp [Html.escape_cons, Html.escapeChar]

/-- The first part is a name. -/
theorem first_part {part : Str} {rest : List Str} (first : sel.parts = part :: rest) :
    part ≠ [] ∧ '/' ∉ part ∧ Html.escape part = part := by
  unfold parts at first
  cases chosen : sel.chosen with
  | nil =>
      rw [chosen, List.flatMap_nil, List.nil_append] at first
      have member : part ∈ sel.ending.parts := by
        rw [first]
        exact List.mem_cons_self
      refine ⟨?_, (sel.escape_ending member).2, (sel.escape_ending member).1⟩
      unfold Ending.parts at member
      cases here : sel.ending with
      | value =>
          rw [here] at member
          cases member
      | criterion c =>
          rw [here, List.mem_singleton] at member
          rw [member]
          exact c.name_plain.2.1
      | radios =>
          rw [here, List.mem_singleton] at member
          rw [member]
          decide
  | cons choice chosen' =>
      rw [chosen] at first
      cases first
      exact ⟨choice.1.name_plain.2.1, choice.1.name_plain.1, choice.1.name_plain.2.2⟩

theorem objidtopath_objid : objidtopath sel.objid = some (Html.escape sel.joined) := by
  have inside : myprefix.isPrefixOf sel.objid = true := by
    rw [objid_eq, List.isPrefixOf_iff_prefix]
    exact List.prefix_append _ _
  rw [objidtopath, if_pos inside, objid_eq, List.drop_left, joined]
  congr 1
  cases all : sel.parts with
  | nil => rfl
  | cons part rest =>
      obtain ⟨filled, no_slash, plain⟩ := sel.first_part all
      rw [flatMap_slash, List.dropWhile_cons_of_pos (by decide)]
      cases part with
      | nil => exact absurd rfl filled
      | cons c part =>
          have begins : ∃ behind, Html.escape (['/'].intercalate ((c :: part) :: rest)) =
              c :: behind := by
            cases rest with
            | nil => exact ⟨part, by simpa using plain⟩
            | cons next rest =>
                rw [List.intercalate_cons_cons, List.append_assoc, Html.escape_append, plain]
                exact ⟨_, rfl⟩
          obtain ⟨behind, same⟩ := begins
          rw [same]
          apply List.dropWhile_cons_of_neg
          simp only [decide_eq_true_eq]
          rintro rfl
          exact no_slash List.mem_cons_self

theorem parts_eq_nil_iff_joined : sel.parts = [] ↔ Html.escape sel.joined = [] := by
  constructor
  · intro none_there
    rw [joined, none_there]
    rfl
  · intro empty
    cases all : sel.parts with
    | nil => rfl
    | cons part rest =>
        obtain ⟨filled, -, plain⟩ := sel.first_part all
        rw [joined, all] at empty
        cases rest with
        | nil =>
            rw [List.intercalate_singleton, plain] at empty
            exact absurd empty filled
        | cons next rest =>
            rw [List.intercalate_cons_cons, List.append_assoc, Html.escape_append, plain,
              List.append_eq_nil_iff] at empty
            exact absurd empty.1 filled

/-- The elements of the path are escaped texts without a slash. -/
theorem pathtocrits_objid (refs : Html.References) :
    pathtocrits refs (Html.escape sel.joined) =
      walkPath refs
        (if sel.parts = [] then [] else (sel.joined.splitOn '/').map Html.escape) {} := by
  unfold pathtocrits
  rw [if_congr sel.parts_eq_nil_iff_joined.symm rfl rfl,
    Html.splitOn_escape (by decide) (by decide)]

/-- What has been walked when a value has been chosen. -/
def choose (crits : Crits) (choice : Criterion × Str) : Crits where
  crit := some choice.1.name
  value := some choice.2
  setcrits := crits.setcrits ++ [choice.1.name]
  filterargs := Dict.set crits.filterargs choice.1.arg choice.2

theorem walkPath_chosen (refs : Html.References) (chosen : List (Criterion × Str))
    (rest : List Str) (crits : Crits) :
    walkPath refs
        ((chosen.flatMap fun choice => [choice.1.name, choice.2]).map Html.escape ++ rest) crits =
      walkPath refs rest (chosen.foldl choose crits) := by
  induction chosen generalizing crits with
  | nil => rfl
  | cons choice chosen ih =>
      rw [List.foldl_cons, ← ih]
      simp only [List.flatMap_cons, List.cons_append, List.nil_append, List.map_cons, walkPath,
        choice.1.name_plain.2.2, Criterion.argtrans_name, Option.bind_some, Html.unescape_escape]
      rfl

theorem foldl_choose {chosen : List (Criterion × Str)}
    (distinct : (chosen.map Prod.fst).Nodup) :
    chosen.foldl choose {} =
      { crit := chosen.getLast?.map fun choice => choice.1.name
        value := chosen.getLast?.map Prod.snd
        setcrits := chosen.map fun choice => choice.1.name
        filterargs := chosen.map fun choice => (choice.1.arg, choice.2) } := by
  induction chosen using List.reverseRecOn with
  | nil => rfl
  | append_singleton chosen choice ih =>
      rw [List.map_append, List.map_singleton] at distinct
      obtain ⟨before, -, apart⟩ := List.nodup_append.mp distinct
      have absent : choice.1.arg ∉
          (chosen.map fun choice => (choice.1.arg, choice.2)).map Prod.fst := by
        rw [List.map_map]
        intro member
        obtain ⟨other, inside, same⟩ := List.mem_map.mp member
        exact apart other.1 (List.mem_map_of_mem inside) choice.1 (List.mem_singleton_self _)
          (Criterion.arg_injective same)
      rw [List.foldl_append, List.foldl_cons, List.foldl_nil, ih before, choose]
      dsimp only
      rw [Dict.set_of_not_mem absent]
      simp

/-- Without slashes the elements are the parts. -/
theorem pathtocrits_of_slashless (slashless : sel.Slashless) (refs : Html.References) :
    pathtocrits refs (Html.escape sel.joined) = some sel.crits := by
  have whole : (if sel.parts = [] then [] else (sel.joined.splitOn '/').map Html.escape) =
      sel.parts.map Html.escape := by
    split
    · rename_i none_there
      rw [none_there]
      rfl
    · rename_i some_part
      rw [joined, List.splitOn_intercalate '/' ?_ some_part]
      intro part member
      rcases List.mem_append.mp member with chosen | ending
      · obtain ⟨choice, inside, member⟩ := List.mem_flatMap.mp chosen
        rcases List.mem_cons.mp member with rfl | value
        · exact choice.1.name_plain.1
        · rw [List.mem_singleton.mp value]
          exact slashless choice inside
      · exact (sel.escape_ending ending).2
  rw [pathtocrits_objid, whole, parts, List.map_append, walkPath_chosen,
    foldl_choose (List.nodup_append.mp sel.distinct).1]
  unfold crits Ending.parts
  cases sel.ending with
  | value => rfl
  | criterion c =>
      simp only [List.map_cons, List.map_nil, c.name_plain.2.2]
      rfl
  | radios => rfl

/-- The values which are found out are elements of the path. -/
theorem walkPath_values {refs : Html.References} {lpath : List Str} {crits crits' : Crits}
    (walked : walkPath refs lpath crits = some crits') {value : Str × Str}
    (member : value ∈ crits'.filterargs) :
    value ∈ crits.filterargs ∨ ∃ component ∈ lpath, value.2 = Html.unescape refs component := by
  fun_induction walkPath refs lpath crits with
  | case1 crits =>
      cases walked
      exact .inl member
  | case2 crits crit =>
      cases walked
      exact .inl member
  | case3 crit component rest crits unescaped ih =>
      obtain ⟨arg, -, walked⟩ := Option.bind_eq_some_iff.mp walked
      rcases ih arg walked with early | ⟨later, inside, same⟩
      · rcases Dict.mem_set early with new | old
        · exact .inr ⟨component, by simp, by rw [new]⟩
        · exact .inl old
      · exact .inr ⟨later, by simp [inside], same⟩

/-- A value which has a slash is not found out. -/
theorem slashless_of_pathtocrits {refs : Html.References}
    (read : pathtocrits refs (Html.escape sel.joined) = some sel.crits) : sel.Slashless := by
  intro choice member slash
  rw [pathtocrits_objid] at read
  have wanted : (choice.1.arg, choice.2) ∈ sel.crits.filterargs :=
    List.mem_map_of_mem member
  rcases walkPath_values read wanted with none_yet | ⟨component, inside, same⟩
  · cases none_yet
  · split at inside
    · cases inside
    · obtain ⟨piece, is_piece, rfl⟩ := List.mem_map.mp inside
      rw [Html.unescape_escape] at same
      dsimp only at same
      rw [same] at slash
      exact Text.not_mem_of_mem_splitOn is_piece slash

end Selection

theorem Selection.crit_ne_radios {sel : Selection} (others : sel.ending ≠ .radios) :
    sel.crits.crit ≠ some "radios".toList := by
  have names (c : Criterion) : c.name ≠ "radios".toList := by
    cases c <;> decide
  unfold Selection.crits
  cases here : sel.ending with
  | value =>
      intro same
      obtain ⟨choice, -, same⟩ := Option.map_eq_some_iff.mp same
      exact names choice.1 same
  | criterion c => exact fun same => names c (Option.some.inj same)
  | radios => exact absurd here others

section Offers

variable {service : Service} {sel : Selection}

/-- The selection with one more criterion, whose values are not chosen yet. -/
def Selection.withCriterion (sel : Selection) (c : Criterion) (left : c ∉ sel.chosen.map Prod.fst) :
    Selection where
  chosen := sel.chosen
  ending := .criterion c
  distinct := List.nodup_append.mpr ⟨(List.nodup_append.mp sel.distinct).1,
    List.nodup_singleton c, fun a inside b new => by
      rintro rfl
      exact left (List.mem_singleton.mp new ▸ inside)⟩
  filled := sel.filled
  below ending := by cases ending

/-- The selection with a value for its last criterion. -/
def Selection.withValue (sel : Selection) (c : Criterion) (ending : sel.ending = .criterion c)
    (value : Str) (filled : value ≠ []) : Selection where
  chosen := sel.chosen ++ [(c, value)]
  ending := .value
  distinct := by
    have distinct := sel.distinct
    rw [ending] at distinct
    simpa [Ending.criteria] using distinct
  filled choice member := by
    rcases List.mem_append.mp member with old | new
    · exact sel.filled choice old
    · rw [List.mem_singleton.mp new]
      exact filled
  below ending := by cases ending

def Selection.withRadios (sel : Selection) (some_choice : sel.chosen ≠ []) : Selection where
  chosen := sel.chosen
  ending := .radios
  distinct := by simpa [Ending.criteria] using (List.nodup_append.mp sel.distinct).1
  filled := sel.filled
  below _ := some_choice

theorem Selection.objid_of_value (ending : sel.ending = .value) :
    sel.objid = sel.chosen.foldl
      (fun objid choice => objid ++ '/' :: choice.1.name ++ '/' :: Html.escape choice.2)
        myprefix := by
  rw [Selection.objid, ending]
  rfl

theorem mem_criterionEntries {objid : Str} {setcrits : List Str} {e : Entry}
    (member : e ∈ criterionEntries objid setcrits) :
    ∃ c : Criterion, c.name ∉ setcrits ∧ e.lookup "id" = some (objid ++ '/' :: c.name) := by
  obtain ⟨tagname, inside, rfl⟩ := List.mem_map.mp member
  obtain ⟨is_name, left⟩ := List.mem_filter.mp inside
  have absent : tagname ∉ setcrits := by simpa using left
  have named : ∃ c : Criterion, tagname = c.name := by
    simp only [List.map_cons, List.map_nil, List.mem_cons, List.not_mem_nil, or_false] at is_name
    rcases is_name with rfl | rfl | rfl
    · exact ⟨.countrycodes, rfl⟩
    · exact ⟨.languages, rfl⟩
    · exact ⟨.tags, rfl⟩
  obtain ⟨c, rfl⟩ := named
  exact ⟨c, absent, rfl⟩

/-- What is listed in a container which is no list of radios is a selection with one more
choice. -/
theorem exists_selection_of_listed (slashless : sel.Slashless) (others : sel.ending ≠ .radios)
    {entries : List Entry} (listed : browseChildren service sel.objid = some entries) {e : Entry}
    (member : e ∈ entries) :
    ∃ next : Selection, sel.chosen <+: next.chosen ∧ e.lookup "id" = some next.objid := by
  have read := sel.pathtocrits_of_slashless slashless service.html
  simp only [browseChildren, bind, sel.objidtopath_objid, read, Option.bind_some,
    if_neg (Selection.crit_ne_radios others), Option.bind_eq_some_iff] at listed
  obtain ⟨shown, which, same⟩ := listed
  cases same
  cases ending : sel.ending with
  | radios => exact absurd ending others
  | value =>
      have value_eq : sel.crits.value = sel.chosen.getLast?.map Prod.snd := by
        rw [Selection.crits, ending]
      have crit_eq : sel.crits.crit = sel.chosen.getLast?.map fun choice => choice.1.name := by
        rw [Selection.crits, ending]
      have criteria : shown = criterionEntries sel.objid sel.crits.setcrits := by
        unfold shownEntries at which
        rw [value_eq, crit_eq] at which
        cases last : sel.chosen.getLast? with
        | none =>
            rw [last] at which
            exact (Option.some.inj which).symm
        | some choice =>
            rw [last] at which
            exact (Option.some.inj which).symm
      rcases List.mem_append.mp member with inside | inside
      · rw [criteria] at inside
        obtain ⟨c, absent, has_id⟩ := mem_criterionEntries inside
        have left : c ∉ sel.chosen.map Prod.fst := by
          intro there
          obtain ⟨choice, chosen, rfl⟩ := List.mem_map.mp there
          exact absent (List.mem_map_of_mem chosen)
        refine ⟨sel.withCriterion c left, List.prefix_refl _, ?_⟩
        rw [has_id, Selection.objid_of_value ending]
        rfl
      · unfold radiosLink at inside
        split at inside
        · rename_i shown
          have some_choice : sel.chosen ≠ [] := by
            intro none_chosen
            rw [value_eq, none_chosen] at shown
            exact shown.2.2.1 rfl
          refine ⟨sel.withRadios some_choice, List.prefix_refl _, ?_⟩
          rw [List.mem_singleton.mp inside, Selection.objid_of_value ending]
          rfl
        · cases inside
  | criterion c =>
      have value_eq : sel.crits.value = none := by
        rw [Selection.crits, ending]
      have crit_eq : sel.crits.crit = some c.name := by
        rw [Selection.crits, ending]
      rcases List.mem_append.mp member with inside | inside
      · unfold shownEntries at which
        rw [value_eq, crit_eq] at which
        obtain ⟨values, -, rfl⟩ := Option.map_eq_some_iff.mp which
        obtain ⟨value, filled, rfl⟩ := List.mem_map.mp inside
        have filled : value.1 ≠ [] := by simpa using (List.mem_filter.mp filled).2
        refine ⟨sel.withValue c ending value.1 filled, List.prefix_append _ _, ?_⟩
        have id_eq : (sel.withValue c ending value.1 filled).objid =
            sel.objid ++ '/' :: Html.escape value.1 := by
          unfold Selection.objid
          rw [ending]
          simp [Selection.withValue, Ending.parts]
        rw [id_eq]
        rfl
      · unfold radiosLink at inside
        rw [if_neg fun shown => shown.2.2.1 value_eq] at inside
        cases inside

end Offers

section Radios

variable (service : Service)

theorem type_radiotoentry (pid : Str) (id : Option Str) (radio : Radio) :
    (radiotoentry service pid id radio).lookup "tp" = some "it".toList := rfl

theorem type_direntry (id pid title : Str) :
    (direntry id pid title).lookup "tp" = some "ct".toList := rfl

theorem id_radiotoentry (pid : Str) (radio : Radio) :
    (radiotoentry service pid none radio).lookup "id" =
      some ((if pid.getLast? = some '$' then pid else pid ++ ['$']) ++ radio.stationuuid) := rfl

/-- The metadata of a radio name another entry: the uuid is put behind the id once more. -/
theorem id_browseMeta_ne {id : Str} {entry : Entry} (found : browseMeta service id = some [entry]) :
    entry.lookup "id" ≠ some id := by
  simp only [browseMeta, bind, Option.bind_eq_some_iff] at found
  obtain ⟨_, -, _, -, radio, -, same⟩ := found
  cases same
  rw [id_radiotoentry]
  intro same
  have longer := congrArg List.length (Option.some.inj same)
  have filled := List.length_pos_of_ne_nil radio.identified
  rw [List.length_append] at longer
  split at longer
  · omega
  · rw [List.length_append] at longer
    omega

/-- Only the radios of a path which ends with `radios` are listed as radios. -/
theorem browseChildren_containers {objid path : Str} {crits : Crits} {entries : List Entry}
    (has_path : objidtopath objid = some path)
    (read : pathtocrits service.html path = some crits)
    (others : crits.crit ≠ some "radios".toList)
    (listed : browseChildren service objid = some entries) {e : Entry} (member : e ∈ entries) :
    e.lookup "tp" = some "ct".toList := by
  have of_values (values : List (Str × Str)) (inside : e ∈ valueEntries objid values) :
      e.lookup "tp" = some "ct".toList := by
    obtain ⟨value, -, rfl⟩ := List.mem_map.mp inside
    exact type_direntry _ _ _
  have of_criteria (inside : e ∈ criterionEntries objid crits.setcrits) :
      e.lookup "tp" = some "ct".toList := by
    obtain ⟨tagname, -, rfl⟩ := List.mem_map.mp inside
    exact type_direntry _ _ _
  simp only [browseChildren, bind, has_path, read, Option.bind_some, if_neg others,
    Option.bind_eq_some_iff] at listed
  obtain ⟨shown, which, same⟩ := listed
  cases same
  unfold shownEntries at which
  unfold radiosLink at member
  rcases List.mem_append.mp member with inside | inside
  · split at which
    · obtain ⟨values, -, rfl⟩ := Option.map_eq_some_iff.mp which
      exact of_values values inside
    · cases which
      exact of_criteria inside
  · split at inside
    · rw [List.mem_singleton.mp inside]
      exact type_direntry _ _ _
    · cases inside

theorem browseChildren_radios {objid path : Str} {crits : Crits}
    (has_path : objidtopath objid = some path)
    (read : pathtocrits service.html path = some crits)
    (radios : crits.crit = some "radios".toList) :
    browseChildren service objid =
      some ((service.facets crits.filterargs).result.map (radiotoentry service objid none)) := by
  simp only [browseChildren, bind, has_path, read, Option.bind_some, if_pos radios]
  rfl

/-- The metadata of a listed radio: its uuid is looked up, and the entry has the same id. -/
def MetaAgrees (radio : Radio) (e : Entry) : Prop :=
  ∃ id, e.lookup "id" = some id ∧ (objidtopath id).bind metaUuid = some radio.stationuuid ∧
    ∃ entry, browseMeta service id = some [entry] ∧ entry.lookup "id" = some id

/-- What is chosen is found in the id again, and so is each radio which is listed there. -/
def IdsFaithful (sel : Selection) : Prop :=
  (objidtopath sel.objid).bind (pathtocrits service.html) = some sel.crits ∧
    ∀ entries, browseChildren service sel.objid = some entries →
      ∀ e ∈ entries, e.lookup "tp" = some "it".toList →
        ∃ radio ∈ (service.facets sel.crits.filterargs).result, MetaAgrees service radio e

/-- The ids say what has been chosen exactly when no value has a slash. A radio is never found
again. -/
theorem idsFaithful_iff (sel : Selection) :
    IdsFaithful service sel ↔
      sel.Slashless ∧
        (sel.ending = .radios → (service.facets sel.crits.filterargs).result = []) := by
  have has_path := sel.objidtopath_objid
  unfold IdsFaithful
  rw [has_path, Option.bind_some]
  constructor
  · rintro ⟨read, radios⟩
    refine ⟨sel.slashless_of_pathtocrits read, fun ending => ?_⟩
    have crit : sel.crits.crit = some "radios".toList := by
      rw [Selection.crits, ending]
    have listed := browseChildren_radios service has_path read crit
    rw [List.eq_nil_iff_forall_not_mem]
    intro radio member
    obtain ⟨_, -, id, -, -, entry, found, same⟩ :=
      radios _ listed _ (List.mem_map_of_mem member) (type_radiotoentry service _ _ _)
    exact id_browseMeta_ne service found same
  · rintro ⟨slashless, none_listed⟩
    have read := sel.pathtocrits_of_slashless slashless service.html
    refine ⟨read, fun entries listed e member radio => ?_⟩
    by_cases ending : sel.ending = .radios
    · have crit : sel.crits.crit = some "radios".toList := by
        rw [Selection.crits, ending]
      rw [browseChildren_radios service has_path read crit, none_listed ending] at listed
      cases listed
      cases member
    · have container := browseChildren_containers service has_path read
        (Selection.crit_ne_radios ending) listed member
      rw [container] at radio
      exact absurd (Option.some.inj radio) (by decide)

/-- A service of which nothing is left to choose. -/
def quietService : Service where
  facets _ := { countrycodes := [], languages := [], tags := [], result := [], truth := true }
  station_by_uuid _ := []
  ccodetoc := []
  lower := id
  html :=
    { names := fun name => [("amp;", '&'), ("lt;", '<'), ("gt;", '>'), ("quot;", '"')].findSome?
        fun entity => if entity.1.toList = name then some [entity.2] else none
      number := fun n => [Char.ofNat n]
      amp := by decide
      lt := by decide
      gt := by decide
      quot := by decide
      apos := by decide }

/-- A tag with a slash, as users of the service enter them. -/
def slashedTag : Selection where
  chosen := [(.tags, "80s/90s".toList)]
  ending := .value
  distinct := by decide
  filled := by decide
  below ending := by cases ending

theorem slashed_tag_not_faithful : ¬ IdsFaithful quietService slashedTag := by
  rintro ⟨read, -⟩
  rw [slashedTag.objidtopath_objid, Option.bind_some] at read
  exact slashedTag.slashless_of_pathtocrits read _ (List.mem_singleton_self _) (by decide)

end Radios

end Upmpdcli.RadioBrowser
