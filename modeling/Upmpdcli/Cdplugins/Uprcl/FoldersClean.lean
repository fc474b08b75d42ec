import Upmpdcli.Cdplugins.Uprcl.FoldersLines

set_option autoImplicit false

/- What the build of the tree must not do: follow an index which is none, and give the name of an
entry to something else. -/
namespace Upmpdcli.Uprcl.Folders

/-- A turn of the walk looks into a directory, and overwrites nothing: the last element is new, or
the name of a directory which has no document yet and gets its own. -/
def CleanStep (mtype elt : Str) (last : Bool) (fathidx : Int) (t : Folders) : Prop :=
  0 ≤ fathidx ∧ (last = true → ∀ dir ids, t.dirAt fathidx = some dir →
    dir.lookup (.text elt) = some ids →
      mtype = directoryType ∧ Name.text elt ≠ dotdot ∧ ids.1 ≠ fathidx ∧ ids.2 = -1)

def CleanPlace (docidx : Nat) (mtype : Str) : List Str → (fathidx : Int) → Folders → Prop
  | [], _, _ => True
  | elt :: rest, fathidx, t =>
      CleanStep mtype elt (rest = []) fathidx t ∧
        ∀ s, placeStep docidx mtype elt (rest = []) fathidx t = some s →
          CleanPlace docidx mtype rest s.2 s.1

/-- The turn of the document loop for a document and its index. -/
def CleanDoc (env : Env) (t : Folders) (doc : Doc × Nat) : Prop :=
  doc.1.get "mtype" ∈ audiomtypes → ∀ fathidx path,
    pathbeyondtopdirs env t doc.1 = some (fathidx, path) → fathidx ≠ 0 →
      CleanPlace doc.2 (doc.1.get "mtype") path fathidx t

/-- The walk of `_stat` looks into directories only. -/
def CleanStat (t : Folders) : List Str → (fathidx : Int) → Prop
  | [], _ => True
  | elt :: rest, fathidx =>
      0 ≤ fathidx ∧ ∀ dir ids, t.dirAt fathidx = some dir → dir.lookup (.text elt) = some ids →
        CleanStat t rest ids.1

/-- A line of a playlist gets a new name, or one which stands for the same document. -/
def CleanLine (env : Env) (plpath : Bytes) (diridx : Nat) (t : Folders) (url : Bytes) : Prop :=
  ∀ dir, t.dirAt diridx = some dir →
    if isUrl url then dir.lookup (.text ((docforurl url).get "title")) = none
    else
      (∀ fathidx path, pathbeyondtopdirs env t (docOfPath
          (if PosixPath.isabs url then url else PosixPath.join (PosixPath.dirname plpath) url)) =
            some (fathidx, path) → fathidx ≠ 0 → CleanStat t path fathidx) ∧
        ∀ i, statpath env t plpath url = some (some (i + 1)) →
          ∀ ids, dir.lookup (.bytes (PosixPath.basename url)) = some ids →
            ids = (-1, ((i + 1 : Nat) : Int))

/-- The path of a playlist, and its lines. A playlist which cannot be read has none. -/
def listOf (env : Env) (t : Folders) (diridx : Nat) : Option (Bytes × List Bytes) := do
  let dir ← t.dirAt diridx
  let ids ← dir.lookup dot
  let i ← pyIndex t.rcldocs.length ids.2
  let pldoc ← t.rcldocs[i]?
  return (docpath env pldoc, (m3u env (docpath env pldoc)).getD [])

theorem initplaylist_eq (env : Env) (t : Folders) (diridx : Nat) :
    initplaylist env t diridx =
      (listOf env t diridx).bind fun found => found.2.foldlM (addLine env found.1 diridx) t := by
  unfold initplaylist listOf
  simp only [bind, Option.bind_assoc, pure, Option.bind_some]
  refine Option.bind_congr fun dir _ => Option.bind_congr fun ids _ =>
    Option.bind_congr fun i _ => Option.bind_congr fun pldoc _ => ?_
  cases m3u env (docpath env pldoc) <;> rfl

def CleanList (env : Env) (t : Folders) (diridx : Nat) : Prop :=
  ∀ found, listOf env t diridx = some found →
    Fold.Each (CleanLine env found.1 diridx) (addLine env found.1 diridx) t found.2

theorem addDocs_eq (env : Env) (docs : List Doc) (docidx : Nat) (t : Folders) :
    addDocs env docs docidx t =
      (docs.zipIdx docidx).foldlM (fun t doc => addDoc env t doc.1 doc.2) t := by
  induction docs generalizing docidx t with
  | nil => rfl
  | cons doc rest ih =>
      rw [addDocs, List.zipIdx_cons, List.foldlM_cons]
      exact congrArg _ (funext fun t' => ih (docidx + 1) t')

section Walk

variable {tops : List Str} {t : Folders} {locs : List Loc} {owner : List (Loc × Nat)}
  {lists : List Loc} {marks : Marks} {loc : Loc} {k : Nat} {elt : Str} {docidx : Nat} {mtype : Str}

/-- The walk up to the last element looks into directories, and ends at one. -/
def CleanWalk (docidx : Nat) (mtype : Str) : List Str → (fathidx : Int) → Folders → Prop
  | [], fathidx, _ => 0 ≤ fathidx
  | elt :: rest, fathidx, t =>
      0 ≤ fathidx ∧ ∀ s, placeStep docidx mtype elt false fathidx t = some s →
        CleanWalk docidx mtype rest s.2 s.1

theorem CleanWalk.nonneg {elements : List Str} {fathidx : Int}
    (clean : CleanWalk docidx mtype elements fathidx t) : 0 ≤ fathidx := by
  cases elements with
  | nil => exact clean
  | cons elt rest => exact clean.1

theorem cleanPlace_concat (docidx : Nat) (mtype : Str) (elements : List Str) (elt : Str)
    (fathidx : Int) (t : Folders) :
    CleanPlace docidx mtype (elements ++ [elt]) fathidx t ↔
      CleanWalk docidx mtype elements fathidx t ∧
        ∀ s, walk docidx mtype elements fathidx t = some s → CleanStep mtype elt true s.2 s.1 := by
  induction elements generalizing fathidx t with
  | nil =>
      constructor
      · rintro ⟨clean, -⟩
        refine ⟨clean.1, ?_⟩
        rintro s ⟨⟩
        exact clean
      · rintro ⟨-, clean⟩
        exact ⟨clean _ rfl, fun _ _ => trivial⟩
  | cons first rest ih =>
      have more : (rest ++ [elt] = []) = False := by simp
      simp only [List.cons_append, CleanPlace, CleanWalk, CleanStep, walk, more, decide_false,
        Bool.false_eq_true, false_implies, and_true, ih, and_assoc]
      refine and_congr_right fun _ => ?_
      constructor
      · intro clean
        refine ⟨fun s turn => (clean s turn).1, fun s' walked => ?_⟩
        obtain ⟨s, turn, later⟩ := Option.bind_eq_some_iff.mp walked
        exact (clean s turn).2 s' later
      · rintro ⟨way, last⟩ s turn
        refine ⟨way s turn, fun s' later => last s' ?_⟩
        rw [turn, Option.bind_some, later]

variable (docidx mtype) in
/-- The way is clean when no place on it is that of a file. -/
theorem Represents.cleanWalk_iff (rep : Represents tops t locs owner lists marks)
    {elements : List Str} (at_k : locs[k]? = some loc)
    (inside : ∀ l ∈ visited loc elements, l ≠ []) :
    CleanWalk docidx mtype elements k t ↔
      ∀ l ∈ visited loc elements ++ [target loc elements], l ∈ locs ∨ owner.lookup l = none := by
  induction elements generalizing t locs k loc with
  | nil =>
      refine iff_of_true (Int.natCast_nonneg k) fun l member => ?_
      rw [List.mem_singleton.mp member]
      exact .inl (List.mem_of_getElem? at_k)
  | cons first rest ih =>
      have below_root := inside loc (by simp [visited])
      have here := List.mem_of_getElem? at_k
      have later : visited loc (first :: rest) ++ [target loc (first :: rest)] =
          loc :: (visited (step loc first) rest ++ [target (step loc first) rest]) := rfl
      have next : step loc first ∈ visited (step loc first) rest ++
          [target (step loc first) rest] := by
        cases rest <;> simp [visited, target]
      rw [later, List.forall_mem_cons, and_iff_right (.inl here), CleanWalk,
        and_iff_right (Int.natCast_nonneg k)]
      by_cases no_file : step loc first ∈ locs ∨ owner.lookup (step loc first) = none
      · obtain ⟨t₁, locs₁, k₁, stepped, rep₁, -, at_k₁, members₁, -, -⟩ :=
          rep.placeStep_way first docidx mtype at_k below_root no_file
        have clean := ih rep₁ at_k₁ fun l there => inside l (by simp [visited, there])
        rw [stepped]
        constructor
        · intro walked l member
          rcases clean.mp (walked _ rfl) l member with old | free
          · rcases (members₁ l).mp old with old | rfl
            · exact .inl old
            · exact no_file
          · exact .inr free
        · rintro free _ ⟨⟩
          refine clean.mpr fun l member => ?_
          exact (free l member).imp (fun old => (members₁ l).mpr (.inl old)) id
      · refine iff_of_false (fun walked => ?_) fun free => no_file (free _ next)
        obtain ⟨dir, -, dir_at, dir_of⟩ := rep.dir_at at_k
        rw [not_or] at no_file
        have names := rep.names_of_no_dir at_k no_file.1
        rw [names.step] at no_file
        obtain ⟨i, owned⟩ := Option.ne_none_iff_exists'.mp no_file.2
        have stepped : placeStep docidx mtype first false k t = some (t, -1) := by
          unfold placeStep
          simp only [dir_at, bind, Option.bind_some]
          rw [dir_of.lookup_names names, idsOf, if_neg no_file.1, owned]
          rfl
        have follows : (0 : Int) ≤ -1 := (walked _ stepped).nonneg
        exact absurd follows (by decide)

/-- The last step is clean at a name which is free, where a directory may be for a directory. -/
theorem Represents.cleanStep_iff (rep : Represents tops t locs owner lists marks)
    (at_k : locs[k]? = some loc) :
    CleanStep mtype elt true k t ↔
      Names loc elt ∧ owner.lookup (loc ++ [elt]) = none ∧
        (mtype ≠ directoryType → loc ++ [elt] ∉ locs) := by
  obtain ⟨dir, -, dir_at, dir_of⟩ := rep.dir_at at_k
  constructor
  · rintro ⟨-, clean⟩
    have clean := clean rfl dir
    have names : Names loc elt := by
      constructor
      · rintro rfl
        exact (clean _ dir_at dir_of.father).2.1 rfl
      · rintro rfl
        by_contra deep
        obtain ⟨d, self⟩ := dir_of.self (by omega)
        exact (clean _ dir_at self).2.2.1 rfl
    have entry := dir_of.lookup_names names
    refine ⟨names, ?_, fun other is_dir => ?_⟩
    · cases owned : owner.lookup (loc ++ [elt]) with
      | none => rfl
      | some i =>
          unfold idsOf at entry
          rw [owned] at entry
          split at entry
          · exact absurd (clean _ dir_at entry).2.2.2 (by simp [docId])
          · exact absurd (clean _ dir_at entry).2.2.2 (by simp)
    · rw [idsOf, if_pos is_dir] at entry
      exact other (clean _ dir_at entry).1
  · rintro ⟨names, free, fresh⟩
    refine ⟨Int.natCast_nonneg k, fun _ dir' ids at_k' entry => ?_⟩
    rw [dir_at, Option.some.injEq] at at_k'
    subst at_k'
    rw [dir_of.lookup_names names, idsOf, free] at entry
    split at entry
    · rename_i is_dir
      cases entry
      refine ⟨?_, names.ne_dotdot, ?_, rfl⟩
      · by_contra other
        exact fresh other is_dir
      · intro same
        have at_new := List.getElem?_idxOf is_dir
        rw [Int.ofNat_inj.mp same, at_k, Option.some.injEq] at at_new
        simp at at_new
    · cases entry

end Walk

section Documents

variable {env : Env} {tops : List Str} {t : Folders} {locs : List Loc} {places : List Placement}
  {marks : Marks} {p : Placement}

theorem Arranged.no_file_iff (arranged : Arranged tops t locs places marks) {l : Loc} :
    (l ∈ locs ∨ (places.map fun p => (p.place, p.docidx)).lookup l = none) ↔
      ∀ q ∈ places, q.isFile → q.place ≠ l := by
  constructor
  · rintro (dir | free) q member file rfl
    · exact arranged.files q member file dir
    · exact lookup_places.mp free q member rfl
  · intro no_file
    by_cases some_doc : ∃ q ∈ places, q.place = l
    · obtain ⟨q, member, rfl⟩ := some_doc
      have not_file : ¬ q.isFile := fun file => no_file q member file rfl
      exact .inl ((arranged.members _).mpr (.inr (.inr ⟨q, member, .inr ⟨rfl, not_file⟩⟩)))
    · push Not at some_doc
      exact .inr (lookup_places.mpr some_doc)

/-- A document whose way stays below the root is placed without a clash when it fits, and only
then. -/
theorem Arranged.cleanPlace_iff (arranged : Arranged tops t locs places marks)
    (top_in : p.top ∈ tops) (filled : p.elements ≠ []) (inside : [] ∉ p.way) :
    CleanPlace p.docidx p.mtype p.elements ((tops.idxOf p.top : Int) + 1) t ↔ Fits places p := by
  obtain ⟨elements, elt, same⟩ := (List.eq_nil_or_concat p.elements).resolve_left filled
  rw [List.concat_eq_append] at same
  have way_eq : p.way = visited [p.top] elements ++ [target [p.top] elements] := by
    rw [Placement.way, same, visited_concat]
  have inside' : ∀ l ∈ visited [p.top] elements, l ≠ [] := by
    rintro l there rfl
    exact inside (way_eq ▸ List.mem_append_left _ there)
  have at_top := arranged.rep.at_top top_in
  have first_idx : ((tops.idxOf p.top : Int) + 1) = ((tops.idxOf p.top + 1 : Nat) : Int) := by
    push_cast
    rfl
  rw [same, first_idx, cleanPlace_concat,
    arranged.rep.cleanWalk_iff p.docidx p.mtype at_top inside', ← way_eq]
  by_cases no_file : ∀ l ∈ p.way, l ∈ locs ∨
      (places.map fun p => (p.place, p.docidx)).lookup l = none
  · obtain ⟨t₁, locs₁, k₁, walked, rep₁, -, at_k₁, members₁, -, -⟩ :=
      arranged.rep.walk_way at_top inside' fun l there => no_file l (by
        rw [Placement.way, same]
        exact there)
    rw [and_iff_right no_file, walked]
    have last : (∀ s, some (t₁, (k₁ : Int)) = some s → CleanStep p.mtype elt true s.2 s.1) ↔
        CleanStep p.mtype elt true k₁ t₁ := by simp
    have on_way : ∀ l, l ∈ locs₁ ↔ l ∈ locs ∨ l ∈ p.way := by rwa [Placement.way, same]
    rw [last, rep₁.cleanStep_iff at_k₁]
    constructor
    · rintro ⟨names, free, fresh⟩
      have place_eq : p.place = target [p.top] elements ++ [elt] := by
        rw [Placement.place, same, target_concat, names.step]
      rw [← place_eq] at free fresh
      refine ⟨inside, ?_, lookup_places.mp free, ?_, fun not_dir => ⟨fun there => ?_, ?_⟩⟩
      · intro front other split
        obtain ⟨rfl, last_eq⟩ := List.append_inj' (same.symm.trans split) rfl
        cases last_eq
        exact names
      · exact fun q member file there =>
          arranged.no_file_iff.mp (no_file q.place there) q member file rfl
      · exact fresh not_dir ((on_way _).mpr (.inr there))
      · intro q member there
        have is_dir : IsDirectory tops places p.place := .inr (.inr ⟨q, member, .inl there⟩)
        exact fresh not_dir ((on_way _).mpr (.inl ((arranged.members _).mpr is_dir)))
    · intro fits
      have names := fits.last elements elt same
      have place_eq : p.place = target [p.top] elements ++ [elt] := by
        rw [Placement.place, same, target_concat, names.step]
      have father_in : target [p.top] elements ∈ p.way := by rw [way_eq]; simp
      rw [← place_eq]
      refine ⟨names, lookup_places.mpr fits.free, fun not_dir there => ?_⟩
      have deep : 2 ≤ p.place.length := by
        have := List.length_pos_iff.mpr fun root => inside (root ▸ father_in)
        rw [place_eq, List.length_append, List.length_singleton]
        omega
      rcases (on_way _).mp there with old | own
      · exact fits.not_directory not_dir deep ((arranged.members _).mp old)
      · exact (fits.fresh not_dir).1 own
  · refine iff_of_false (fun clean => no_file clean.1) fun fits => no_file fun l there => ?_
    exact arranged.no_file_iff.mpr fun q member file here =>
      fits.through q member file (here ▸ there)

/-- What holds of the way of each path below a top directory. -/
theorem Represents.forall_beyond_iff {owner : List (Loc × Nat)} {lists : List Loc}
    (rep : Represents tops t locs owner lists marks) (env : Env) (doc : Doc)
    {C : Int → List Str → Prop} :
    (∀ fathidx path, pathbeyondtopdirs env t doc = some (fathidx, path) → fathidx ≠ 0 →
        C fathidx path) ↔
      ∀ found, chain env tops doc = some found → C ((tops.idxOf found.1 : Int) + 1) found.2 := by
  have same := rep.pathbeyondtopdirs_eq env doc
  cases chained : chain env tops doc with
  | none =>
      refine iff_of_true (fun fathidx path beyond not_root => ?_) nofun
      rw [chained, beyond, Option.map_none] at same
      exact absurd (by simpa [Option.filter] using same) not_root
  | some top =>
      rw [chained, Option.map_some, Option.filter_eq_some_iff] at same
      constructor
      · rintro holds _ ⟨⟩
        exact holds _ _ same.1 (by omega)
      · intro holds fathidx path beyond _
        rw [same.1] at beyond
        cases beyond
        exact holds top rfl

/-- The turn for a document is clean when its placement fits. -/
theorem Arranged.cleanDoc_iff (arranged : Arranged tops t locs places marks) (doc : Doc × Nat)
    (inside : ∀ p, placementOf env tops doc.1 doc.2 = some p → [] ∉ p.way) :
    CleanDoc env t doc ↔ ∀ p, placementOf env tops doc.1 doc.2 = some p → Fits places p := by
  unfold CleanDoc
  by_cases audio : doc.1.get "mtype" ∈ audiomtypes
  · rw [imp_iff_right audio, arranged.rep.forall_beyond_iff]
    cases chained : chain env tops doc.1 with
    | none =>
        have no_place : placementOf env tops doc.1 doc.2 = none := by
          rw [placementOf, if_neg (not_not.mpr audio), chained]
          rfl
        exact iff_of_true nofun (by simp [no_place])
    | some top =>
        simp only [Option.some.injEq, forall_eq']
        by_cases filled : top.2 = []
        · have no_place : placementOf env tops doc.1 doc.2 = none := by
            rw [placementOf, if_neg (not_not.mpr audio), chained, Option.bind_some, if_pos filled]
          rw [filled]
          exact iff_of_true trivial (by simp [no_place])
        · have placed : placementOf env tops doc.1 doc.2 =
              some ⟨doc.2, doc.1.get "mtype", top.1, top.2⟩ := by
            rw [placementOf, if_neg (not_not.mpr audio), chained, Option.bind_some, if_neg filled]
          have clean := arranged.cleanPlace_iff (mem_of_chain chained) filled (inside _ placed)
          rw [clean]
          simp [placed]
  · have no_place : placementOf env tops doc.1 doc.2 = none := by rw [placementOf, if_pos audio]
    exact iff_of_true (fun inside => absurd inside audio) (by simp [no_place])

/-- The places, with that of one more document if it has one. -/
def placeDoc (env : Env) (tops : List Str) (places : List Placement) (doc : Doc × Nat) :
    List Placement :=
  places ++ (placementOf env tops doc.1 doc.2).toList

theorem placements_cons (env : Env) (tops : List Str) (doc : Doc) (rest : List Doc)
    (docidx : Nat) :
    placements env tops (doc :: rest) docidx =
      (placementOf env tops doc docidx).toList ++ placements env tops rest (docidx + 1) := by
  rw [placements, List.zipIdx_cons, List.filterMap_cons]
  cases placementOf env tops doc docidx <;> rfl

theorem foldl_placeDoc (env : Env) (tops : List Str) (docs : List Doc) (docidx : Nat)
    (places : List Placement) :
    (docs.zipIdx docidx).foldl (placeDoc env tops) places =
      places ++ placements env tops docs docidx := by
  induction docs generalizing docidx places with
  | nil => simp [placements]
  | cons doc rest ih =>
      rw [List.zipIdx_cons, List.foldl_cons, ih, placements_cons, placeDoc, List.append_assoc]

variable (env tops) in
/-- The placement of each document fits behind those of the ones before it. -/
theorem each_fits_iff (docs : List Doc) (docidx : Nat) (places : List Placement) :
    Fold.Each (fun places doc => ∀ p, placementOf env tops doc.1 doc.2 = some p → Fits places p)
        (fun places doc => some (placeDoc env tops places doc)) places (docs.zipIdx docidx) ↔
      ∀ before p behind, placements env tops docs docidx = before ++ p :: behind →
        Fits (places ++ before) p := by
  induction docs generalizing docidx places with
  | nil => exact iff_of_true trivial (by simp [placements])
  | cons doc rest ih =>
      rw [List.zipIdx_cons, Fold.each_cons_of_some rfl, ih, placements_cons, placeDoc]
      cases placementOf env tops doc docidx with
      | none => simp
      | some first =>
          simp only [Option.some.injEq, forall_eq', Option.toList_some, List.singleton_append]
          constructor
          · rintro ⟨fits, later⟩ before p behind split
            cases before with
            | nil =>
                cases split
                rwa [List.append_nil]
            | cons other before =>
                obtain ⟨rfl, rest_eq⟩ := List.cons.inj split
                have fits := later before p behind rest_eq
                rwa [List.append_assoc] at fits
          · intro all
            refine ⟨?_, fun before p behind split => ?_⟩
            · have fits := all [] first _ rfl
              rwa [List.append_nil] at fits
            · rw [List.append_assoc]
              exact all (first :: before) p behind (by rw [split]; rfl)

/-- The tree while the documents come to it. -/
def Grown (tops : List Str) (docs : List Doc) (t : Folders) (places : List Placement) : Prop :=
  ∃ locs, Arranged tops t locs places [] ∧ t.rcldocs = docs ∧ t.moredocs = []

theorem Grown.turn {docs : List Doc} (grown : Grown tops docs t places) {doc : Doc × Nat}
    (fits : ∀ p, placementOf env tops doc.1 doc.2 = some p → Fits places p) :
    CleanDoc env t doc ∧ ∃ t', addDoc env t doc.1 doc.2 = some t' ∧
      Grown tops docs t' (placeDoc env tops places doc) := by
  obtain ⟨locs, arranged, docs_eq, none_more⟩ := grown
  refine ⟨(arranged.cleanDoc_iff doc fun p placed => (fits p placed).inside).mpr fits, ?_⟩
  have turn := arranged.addDoc_eq env doc.1 doc.2
  unfold placeDoc
  cases placed : placementOf env tops doc.1 doc.2 with
  | none =>
      rw [placed] at turn
      exact ⟨t, turn, locs, by simpa using arranged, docs_eq, none_more⟩
  | some p =>
      rw [placed] at turn
      obtain ⟨-, -, top_in, filled, -⟩ := placementOf_spec placed
      obtain ⟨t', locs', ran, arranged', docs', more'⟩ :=
        arranged.place (fits p placed) top_in filled
      exact ⟨t', turn.trans ran, locs', arranged', docs'.trans docs_eq, more'.trans none_more⟩

/-- The documents come to the tree without a clash when they all fit. -/
theorem Grown.run {docs : List Doc} (grown : Grown tops docs t []) (fit : AllFit
    (placements env tops docs)) :
    Fold.Each (CleanDoc env) (fun t doc => addDoc env t doc.1 doc.2) t docs.zipIdx ∧
      ∃ t', addDocs env docs 0 t = some t' ∧ Grown tops docs t' (placements env tops docs) := by
  have each := (each_fits_iff env tops docs 0 []).mpr fit
  have ran := Fold.run_of_each (fun t places doc _ grown fits => grown.turn fits) grown each
  rwa [foldl_placeDoc, List.nil_append, ← addDocs_eq] at ran

/-- Where no way leads back to the root, they do so only then. -/
theorem Grown.fit {docs : List Doc} (grown : Grown tops docs t [])
    (below : ∀ p ∈ placements env tops docs, [] ∉ p.way)
    (clean : Fold.Each (CleanDoc env) (fun t doc => addDoc env t doc.1 doc.2) t docs.zipIdx)
    (ran : ∃ t', addDocs env docs 0 t = some t') : AllFit (placements env tops docs) := by
  rw [addDocs_eq] at ran
  refine (each_fits_iff env tops docs 0 []).mp ((Fold.each_iff_run
    (fun t places doc _ grown fits => grown.turn fits) ?_ grown).mpr ⟨clean, ran⟩)
  rintro t places doc - member ⟨locs, arranged, -⟩ clean -
  refine (arranged.cleanDoc_iff doc fun p placed => below p ?_).mp clean
  exact List.mem_filterMap.mpr ⟨doc, member, placed⟩

end Documents

end Upmpdcli.Uprcl.Folders
