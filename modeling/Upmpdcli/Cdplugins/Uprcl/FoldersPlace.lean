import Upmpdcli.Cdplugins.Uprcl.FoldersTree

set_option autoImplicit false

/- How the documents come to their places in the tree. -/
namespace Upmpdcli.Uprcl.Folders

/-- What the tree has of a document: its top directory, and the elements of its path below it. -/
structure Placement where
  docidx : Nat
  mtype : Str
  top : Str
  elements : List Str

namespace Placement

def isDir (p : Placement) : Prop := p.mtype = directoryType

def isList (p : Placement) : Prop := p.mtype = playlistType

def isFile (p : Placement) : Prop := ¬ p.isDir ∧ ¬ p.isList

instance (p : Placement) : Decidable p.isDir := inferInstanceAs (Decidable (_ = _))

instance (p : Placement) : Decidable p.isList := inferInstanceAs (Decidable (_ = _))

instance (p : Placement) : Decidable p.isFile := inferInstanceAs (Decidable (_ ∧ _))

theorem not_isFile (p : Placement) :
    (p.mtype = directoryType ∨ p.mtype = playlistType) ↔ ¬ p.isFile := by
  rw [isFile, ← not_or, not_not]
  rfl

/-- The places which are looked at on the way to the document. -/
def way (p : Placement) : List Loc := visited [p.top] p.elements

def place (p : Placement) : Loc := target [p.top] p.elements

end Placement

/-- The top directory of a path, and the elements below it. -/
def chain (env : Env) (tops : List Str) (doc : Doc) : Option (Str × List Str) :=
  let url := Utf8.decodeReplace (docpath env doc)
  if "..".toList.isPrefixOf url then none
  else
    (tops.find? fun top => top.isPrefixOf url).bind fun top =>
      let url1 := url.drop top.length
      if url1 = [] then none else some (top, pathElements (doc.get "group") url1)

def placementOf (env : Env) (tops : List Str) (doc : Doc) (docidx : Nat) : Option Placement :=
  if doc.get "mtype" ∉ audiomtypes then none
  else
    (chain env tops doc).bind fun found =>
      if found.2 = [] then none else some ⟨docidx, doc.get "mtype", found.1, found.2⟩

/-- The places of the documents, in their order. -/
def placements (env : Env) (tops : List Str) (docs : List Doc) (start : Nat := 0) :
    List Placement :=
  (docs.zipIdx start).filterMap fun doc => placementOf env tops doc.1 doc.2

/-- The places which are directories: the root, the top directories, what leads to a document, and
the documents which are no files. -/
def IsDirectory (tops : List Str) (places : List Placement) (l : Loc) : Prop :=
  l = [] ∨ (∃ top ∈ tops, l = [top]) ∨ ∃ p ∈ places, l ∈ p.way ∨ (l = p.place ∧ ¬ p.isFile)

instance (tops : List Str) (places : List Placement) (l : Loc) :
    Decidable (IsDirectory tops places l) := inferInstanceAs (Decidable (_ ∨ _ ∨ _))

theorem isDirectory_concat {tops : List Str} {places : List Placement} {p : Placement} {l : Loc} :
    IsDirectory tops (places ++ [p]) l ↔
      IsDirectory tops places l ∨ l ∈ p.way ∨ (l = p.place ∧ ¬ p.isFile) := by
  unfold IsDirectory
  simp only [List.mem_append, List.mem_singleton]
  constructor
  · rintro (root | top | ⟨q, member | rfl, facts⟩)
    · exact .inl (.inl root)
    · exact .inl (.inr (.inl top))
    · exact .inl (.inr (.inr ⟨q, member, facts⟩))
    · exact .inr facts
  · rintro ((root | top | ⟨q, member, facts⟩) | facts)
    · exact .inl root
    · exact .inr (.inl top)
    · exact .inr (.inr ⟨q, .inl member, facts⟩)
    · exact .inr (.inr ⟨p, .inr rfl, facts⟩)

/-- A document can come behind these ones: the way to its place leads through directories only
and stays below the root, the last element is a name, and nothing is at the place but a
directory, if the document is one. -/
structure Fits (before : List Placement) (p : Placement) : Prop where
  inside : [] ∉ p.way
  last : ∀ elements elt, p.elements = elements ++ [elt] → Names (target [p.top] elements) elt
  free : ∀ q ∈ before, q.place ≠ p.place
  through : ∀ q ∈ before, q.isFile → q.place ∉ p.way
  fresh : ¬ p.isDir → p.place ∉ p.way ∧ ∀ q ∈ before, p.place ∉ q.way

/-- Each document fits behind the ones before it. -/
def AllFit (places : List Placement) : Prop :=
  ∀ before p behind, places = before ++ p :: behind → Fits before p

/-- The walk to the last element of a path. -/
def walk (docidx : Nat) (mtype : Str) :
    List Str → (fathidx : Int) → Folders → Option (Folders × Int)
  | [], fathidx, t => some (t, fathidx)
  | elt :: rest, fathidx, t =>
      (placeStep docidx mtype elt false fathidx t).bind fun s => walk docidx mtype rest s.2 s.1

theorem place_concat (docidx : Nat) (mtype : Str) (elements : List Str) (elt : Str)
    (fathidx : Int) (t : Folders) :
    place docidx mtype (elements ++ [elt]) fathidx t =
      (walk docidx mtype elements fathidx t).bind fun s =>
        (placeStep docidx mtype elt true s.2 s.1).map Prod.fst := by
  induction elements generalizing fathidx t with
  | nil =>
      simp only [List.nil_append, place, walk, bind, Option.map_eq_bind, Option.bind_some]
      rfl
  | cons first rest ih =>
      have more : rest ++ [elt] ≠ [] := by simp
      simp only [List.cons_append, place, walk, bind, Option.bind_assoc, ih, more, decide_false]

section Ways

variable {loc : Loc} {elt : Str}

theorem visited_append (loc : Loc) (first second : List Str) :
    visited loc (first ++ second) = visited loc first ++ visited (target loc first) second := by
  induction first generalizing loc with
  | nil => rfl
  | cons elt rest ih => simp [visited, target, ih]

theorem visited_concat (loc : Loc) (elements : List Str) (elt : Str) :
    visited loc (elements ++ [elt]) = visited loc elements ++ [target loc elements] :=
  visited_append loc elements [elt]

theorem target_concat (loc : Loc) (elements : List Str) (elt : Str) :
    target loc (elements ++ [elt]) = step (target loc elements) elt := by
  simp [target]

end Ways

/-- The place of a file which fits is no directory. -/
theorem Fits.not_directory {tops : List Str} {places : List Placement} {p : Placement}
    (fits : Fits places p) (not_dir : ¬ p.isDir) (deep : 2 ≤ p.place.length) :
    ¬ IsDirectory tops places p.place := by
  rintro (root | ⟨top, -, is_top⟩ | ⟨q, member, seen | taken⟩)
  · rw [root] at deep
    simp at deep
  · rw [is_top] at deep
    simp at deep
  · exact (fits.fresh not_dir).2 q member seen
  · exact fits.free q member taken.1.symm

section Steps

variable {tops : List Str} {t : Folders} {locs : List Loc} {owner : List (Loc × Nat)}
  {lists : List Loc} {marks : Marks} {loc : Loc} {k : Nat} {elt : Str} {docidx : Nat} {mtype : Str}

variable (elt docidx mtype) in
/-- A step which is not the last one leads to the directory of its place, which is made when
there is none. -/
theorem Represents.placeStep_way (rep : Represents tops t locs owner lists marks)
    (at_k : locs[k]? = some loc) (below_root : loc ≠ [])
    (no_file : step loc elt ∈ locs ∨ owner.lookup (step loc elt) = none) :
    ∃ (t' : Folders) (locs' : List Loc) (k' : Nat),
      placeStep docidx mtype elt false k t = some (t', (k' : Int)) ∧
      Represents tops t' locs' owner lists marks ∧ locs <+: locs' ∧
      locs'[k']? = some (step loc elt) ∧ (∀ l, l ∈ locs' ↔ l ∈ locs ∨ l = step loc elt) ∧
      t'.rcldocs = t.rcldocs ∧ t'.moredocs = t.moredocs := by
  obtain ⟨dir, -, dir_at, dir_of⟩ := rep.dir_at at_k
  unfold placeStep
  simp only [dir_at, bind, Option.bind_some]
  by_cases is_dir : step loc elt ∈ locs
  · obtain ⟨d, found⟩ := rep.lookup_step at_k dir_of is_dir
    rw [found]
    refine ⟨t, locs, locs.idxOf (step loc elt), rfl, rep, List.prefix_rfl,
      List.getElem?_idxOf is_dir, fun l => ⟨.inl, ?_⟩, rfl, rfl⟩
    rintro (there | rfl)
    · exact there
    · exact is_dir
  · have names := rep.names_of_no_dir at_k is_dir
    have free := no_file.resolve_left is_dir
    rw [names.step] at is_dir free ⊢
    rw [dir_of.lookup_names names, idsOf, if_neg is_dir, free, Option.map_none]
    obtain ⟨t', created, rep', docs, more, -⟩ :=
      rep.addDir at_k below_root names is_dir free none
    refine ⟨t', _, locs.length, created, by simpa [withOwner] using rep', List.prefix_append _ _,
      by simp, fun l => by simp, docs, more⟩

/-- The way to the last element of a path. -/
theorem Represents.walk_way (rep : Represents tops t locs owner lists marks) {elements : List Str}
    (at_k : locs[k]? = some loc) (inside : ∀ l ∈ visited loc elements, l ≠ [])
    (no_file : ∀ l ∈ visited loc (elements ++ [elt]), l ∈ locs ∨ owner.lookup l = none) :
    ∃ (t' : Folders) (locs' : List Loc) (k' : Nat),
      walk docidx mtype elements k t = some (t', (k' : Int)) ∧
      Represents tops t' locs' owner lists marks ∧ locs <+: locs' ∧
      locs'[k']? = some (target loc elements) ∧
      (∀ l, l ∈ locs' ↔ l ∈ locs ∨ l ∈ visited loc (elements ++ [elt])) ∧
      t'.rcldocs = t.rcldocs ∧ t'.moredocs = t.moredocs := by
  induction elements generalizing t locs k loc with
  | nil =>
      refine ⟨t, locs, k, rfl, rep, List.prefix_rfl, at_k, fun l => ⟨.inl, ?_⟩, rfl, rfl⟩
      rintro (there | here)
      · exact there
      · rw [List.mem_singleton.mp here]
        exact List.mem_of_getElem? at_k
  | cons first rest ih =>
      have next_in : step loc first ∈ visited (step loc first) (rest ++ [elt]) := by
        cases rest <;> simp [visited]
      obtain ⟨t₁, locs₁, k₁, stepped, rep₁, grown₁, at_k₁, members₁, docs₁, more₁⟩ :=
        rep.placeStep_way first docidx mtype at_k
          (inside loc (by simp [visited])) (no_file _ (by simp [visited, next_in]))
      obtain ⟨t', locs', k', walked, rep', grown', at_k', members', docs', more'⟩ :=
        ih rep₁ at_k₁ (fun l there => inside l (by simp [visited, there])) fun l there => by
          rcases no_file l (by simp [visited, there]) with old | free
          · exact .inl ((members₁ l).mpr (.inl old))
          · exact .inr free
      refine ⟨t', locs', k', ?_, rep', grown₁.trans grown', at_k', fun l => ?_,
        docs'.trans docs₁, more'.trans more₁⟩
      · rw [walk, stepped, Option.bind_some, walked]
      · rw [members', members₁, List.cons_append, visited, List.mem_cons]
        constructor
        · rintro ((old | rfl) | behind)
          · exact .inl old
          · exact .inr (.inr next_in)
          · exact .inr (.inr behind)
        · rintro (old | rfl | behind)
          · exact .inl (.inl old)
          · exact .inl (.inl (List.mem_of_getElem? at_k))
          · exact .inr behind

/-- The last step, to a place which is free. -/
theorem Represents.placeStep_last (rep : Represents tops t locs owner lists marks)
    (at_k : locs[k]? = some loc) (below_root : loc ≠ []) (names : Names loc elt)
    (free : owner.lookup (loc ++ [elt]) = none)
    (fresh : mtype ≠ directoryType → loc ++ [elt] ∉ locs) :
    ∃ t' locs' lists' k', placeStep docidx mtype elt true k t = some (t', k') ∧
      Represents tops t' locs' (withOwner owner (loc ++ [elt]) (some docidx)) lists' marks ∧
      locs <+: locs' ∧
      (∀ l, l ∈ locs' ↔ l ∈ locs ∨ (l = loc ++ [elt] ∧
        (mtype = directoryType ∨ mtype = playlistType))) ∧
      lists' = lists ++ (if mtype = playlistType then [loc ++ [elt]] else []) ∧
      t'.rcldocs = t.rcldocs ∧ t'.moredocs = t.moredocs := by
  obtain ⟨dir, -, dir_at, dir_of⟩ := rep.dir_at at_k
  unfold placeStep
  simp only [dir_at, bind, Option.bind_some, dir_of.lookup_names names, idsOf, free]
  by_cases is_dir : loc ++ [elt] ∈ locs
  · have dir_type : mtype = directoryType := by
      by_contra other
      exact fresh other is_dir
    obtain ⟨t', set, rep', docs, more⟩ := rep.setDoc at_k below_root names free docidx
    rw [if_pos is_dir] at set
    rw [if_pos is_dir]
    simp only [if_true, set, Option.bind_some]
    refine ⟨t', locs, lists, _, rfl, rep', List.prefix_rfl, fun l => ⟨.inl, ?_⟩, ?_, docs, more⟩
    · rintro (there | ⟨rfl, -⟩)
      · exact there
      · exact is_dir
    · have not_list : mtype ≠ playlistType := dir_type ▸ by decide
      rw [if_neg not_list, List.append_nil]
  · rw [if_neg is_dir]
    simp only [Option.map_none, Bool.true_eq_false, if_false]
    by_cases dir_type : mtype = directoryType
    · obtain ⟨t', created, rep', docs, more, -⟩ :=
        rep.addDir at_k below_root names is_dir free (some docidx)
      rw [if_pos dir_type]
      refine ⟨t', _, lists, _, created, rep', List.prefix_append _ _, fun l => ?_, ?_, docs, more⟩
      · simp [dir_type]
      · have not_list : mtype ≠ playlistType := dir_type ▸ by decide
        rw [if_neg not_list, List.append_nil]
    · rw [if_neg dir_type]
      by_cases list_type : mtype = playlistType
      · obtain ⟨t', created, rep', docs, more⟩ :=
          rep.addList at_k below_root names is_dir free docidx
        rw [if_pos list_type]
        refine ⟨t', _, _, _, created, rep', List.prefix_append _ _, fun l => ?_, ?_, docs, more⟩
        · simp [list_type]
        · rw [if_pos list_type]
      · obtain ⟨t', set, rep', docs, more⟩ := rep.setDoc at_k below_root names free docidx
        rw [if_neg is_dir] at set
        rw [if_neg list_type, set]
        refine ⟨t', locs, lists, k, rfl, rep', List.prefix_rfl, fun l => ?_, ?_, docs, more⟩
        · simp [dir_type, list_type]
        · simp [list_type]

end Steps

section Documents

variable {env : Env} {tops : List Str} {t : Folders} {locs : List Loc}
  {owner : List (Loc × Nat)} {lists : List Loc} {marks : Marks} {doc : Doc} {docidx : Nat}

/-- The first top directory which begins a path, with its index. -/
theorem findSome_tops (url : Str) (tops : List Str) (start : Nat) :
    ((tops.zipIdx start).map fun top : Str × Nat =>
        ((Name.text top.1, ((top.2 : Int) + 1, -1)) : Name × Ids)).findSome? (fun entry =>
      match entry with
      | (.text rtpath, ids) => if rtpath.isPrefixOf url then some (rtpath, ids.1) else none
      | (.bytes _, _) => none) =
      (tops.find? fun top => top.isPrefixOf url).map fun top =>
        (top, ((tops.idxOf top + start : Nat) : Int) + 1) := by
  induction tops generalizing start with
  | nil => rfl
  | cons first rest ih =>
      rw [List.zipIdx_cons, List.map_cons, List.findSome?_cons, List.find?_cons]
      cases begins : first.isPrefixOf url with
      | true =>
          simp only [begins, if_true, Option.map_some, List.idxOf_cons_self, Nat.zero_add]
      | false =>
          simp only [begins, Bool.false_eq_true, if_false]
          rw [ih]
          cases found : rest.find? fun top => top.isPrefixOf url with
          | none => rfl
          | some top =>
              have differ : first ≠ top := by
                rintro rfl
                rw [List.find?_some found] at begins
                cases begins
              rw [Option.map_some, Option.map_some, List.idxOf_cons_ne _ differ]
              simp only [Nat.succ_eq_add_one, Option.some.injEq, Prod.mk.injEq, true_and]
              push_cast
              omega

theorem rootEntry_rootDir (tops : List Str) (url : Str) :
    rootEntry (rootDir tops) url =
      if "..".toList.isPrefixOf url then some ("..".toList, 0)
      else (tops.find? fun top => top.isPrefixOf url).map fun top =>
        (top, (tops.idxOf top : Int) + 1) := by
  have others := findSome_tops url tops 0
  rw [rootEntry, rootDir, List.findSome?_cons]
  cases begins : "..".toList.isPrefixOf url with
  | true => simp only [dotdot, begins, if_true]
  | false =>
      simp only [dotdot, begins, Bool.false_eq_true, if_false]
      exact others

/-- The place of a top directory among the directories. -/
theorem Represents.at_top (rep : Represents tops t locs owner lists marks) {top : Str}
    (member : top ∈ tops) : locs[tops.idxOf top + 1]? = some [top] := by
  obtain ⟨behind, grown⟩ := rep.starts
  have inside := List.idxOf_lt_length_of_mem member
  rw [← grown, List.getElem?_append_left (by simpa using inside), List.getElem?_cons_succ,
    List.getElem?_map, List.getElem?_idxOf member]
  rfl

/-- `_pathbeyondtopdirs` finds the top directory and the elements. -/
theorem Represents.pathbeyondtopdirs_eq (rep : Represents tops t locs owner lists marks) (env : Env)
    (doc : Doc) : (pathbeyondtopdirs env t doc).filter (fun found => found.1 ≠ 0) =
      (chain env tops doc).map fun found => ((tops.idxOf found.1 : Int) + 1, found.2) := by
  have first : t.dirvec.headD [] = rootDir tops := by
    have root := rep.root
    cases dirs : t.dirvec with
    | nil => simp [dirs] at root
    | cons dir rest => simpa [dirs] using root
  unfold pathbeyondtopdirs chain
  rw [first]
  dsimp only
  rw [rootEntry_rootDir]
  cases begins : "..".toList.isPrefixOf (Utf8.decodeReplace (docpath env doc)) with
  | true =>
      simp only [if_true, Option.map_none]
      split
      · rfl
      · rfl
  | false =>
      simp only [Bool.false_eq_true, if_false]
      cases found : tops.find? fun top =>
          top.isPrefixOf (Utf8.decodeReplace (docpath env doc)) with
      | none => rfl
      | some top =>
          have not_file : (tops.idxOf top : Int) + 1 ≠ -1 := by omega
          have not_root : (tops.idxOf top : Int) + 1 ≠ 0 := by omega
          simp only [Option.map_some, Option.bind_some, not_file, false_or]
          split
          · rfl
          · simp [not_root]

/-- The tree of these documents, with the places of its directories. -/
structure Arranged (tops : List Str) (t : Folders) (locs : List Loc) (places : List Placement)
    (marks : Marks) : Prop where
  rep : Represents tops t locs (places.map fun p => (p.place, p.docidx))
    ((places.filter fun p => p.isList).map Placement.place) marks
  members : ∀ l, l ∈ locs ↔ IsDirectory tops places l
  files : ∀ p ∈ places, p.isFile → p.place ∉ locs

variable {places : List Placement} {p : Placement}

theorem lookup_places {l : Loc} :
    (places.map fun p => (p.place, p.docidx)).lookup l = none ↔ ∀ q ∈ places, q.place ≠ l := by
  induction places with
  | nil => simp
  | cons q rest ih =>
      rw [List.map_cons, List.lookup_cons, List.forall_mem_cons, ← ih]
      by_cases here : l = q.place
      · simp [here]
      · simp [beq_false_of_ne here, Ne.symm here]

/-- The elements of a path which fits. -/
theorem Fits.split (fits : Fits places p) (filled : p.elements ≠ []) :
    ∃ elements elt, p.elements = elements ++ [elt] ∧ Names (target [p.top] elements) elt ∧
      target [p.top] elements ∈ p.way ∧ p.place = target [p.top] elements ++ [elt] := by
  obtain ⟨elements, elt, same⟩ := (List.eq_nil_or_concat p.elements).resolve_left filled
  rw [List.concat_eq_append] at same
  have names := fits.last elements elt same
  refine ⟨elements, elt, same, names, ?_, ?_⟩
  · rw [Placement.way, same, visited_concat]
    simp
  · rw [Placement.place, same, target_concat, names.step]

/-- A document which fits comes to its place. -/
theorem Arranged.place (arranged : Arranged tops t locs places marks) (fits : Fits places p)
    (top_in : p.top ∈ tops) (filled : p.elements ≠ []) :
    ∃ t' locs', Folders.place p.docidx p.mtype p.elements ((tops.idxOf p.top : Int) + 1) t =
        some t' ∧ Arranged tops t' locs' (places ++ [p]) marks ∧ t'.rcldocs = t.rcldocs ∧
      t'.moredocs = t.moredocs := by
  obtain ⟨elements, elt, same, names, father_in, place_eq⟩ := fits.split filled
  have way_eq : p.way = visited [p.top] (elements ++ [elt]) := by rw [Placement.way, same]
  have no_doc : (places.map fun p => (p.place, p.docidx)).lookup p.place = none :=
    lookup_places.mpr fits.free
  have no_file : ∀ l ∈ p.way, l ∈ locs ∨
      (places.map fun p => (p.place, p.docidx)).lookup l = none := by
    intro l on_way
    by_cases some_doc : ∃ q ∈ places, q.place = l
    · obtain ⟨q, member, rfl⟩ := some_doc
      by_cases file : q.isFile
      · exact absurd on_way (fits.through q member file)
      · exact .inl ((arranged.members _).mpr (.inr (.inr ⟨q, member, .inr ⟨rfl, file⟩⟩)))
    · push Not at some_doc
      exact .inr (lookup_places.mpr some_doc)
  obtain ⟨t₁, locs₁, k₁, walked, rep₁, -, at_k₁, members₁, docs₁, more₁⟩ :=
    arranged.rep.walk_way (arranged.rep.at_top top_in)
      (fun l there root => fits.inside (root ▸ way_eq ▸ by
        rw [visited_concat]
        exact List.mem_append_left _ there))
      (fun l there => no_file l (way_eq ▸ there))
  have below_root : target [p.top] elements ≠ [] := fun root => fits.inside (root ▸ father_in)
  have deep : 2 ≤ p.place.length := by
    have := List.length_pos_iff.mpr below_root
    rw [place_eq, List.length_append, List.length_singleton]
    omega
  have fresh : p.mtype ≠ directoryType → p.place ∉ locs₁ := by
    intro not_dir there
    rcases (members₁ _).mp there with old | on_way
    · exact fits.not_directory not_dir deep ((arranged.members _).mp old)
    · exact (fits.fresh not_dir).1 (way_eq ▸ on_way)
  obtain ⟨t₂, locs₂, lists₂, k₂, stepped, rep₂, -, members₂, lists_eq, docs₂, more₂⟩ :=
    rep₁.placeStep_last at_k₁ below_root names (place_eq ▸ no_doc)
      (place_eq ▸ fresh)
  have first_idx : ((tops.idxOf p.top : Int) + 1) = ((tops.idxOf p.top + 1 : Nat) : Int) := by
    push_cast
    rfl
  refine ⟨t₂, locs₂, ?_, ⟨?_, ?_, ?_⟩, docs₂.trans docs₁, more₂.trans more₁⟩
  · rw [same, place_concat, first_idx, walked, Option.bind_some, stepped, Option.map_some]
  · rw [← place_eq] at rep₂
    have owner_eq : withOwner (places.map fun p => (p.place, p.docidx)) p.place (some p.docidx) =
        (places ++ [p]).map fun p => (p.place, p.docidx) := by simp [withOwner]
    have lists_eq' : lists₂ = ((places ++ [p]).filter fun p => p.isList).map Placement.place := by
      rw [lists_eq, List.filter_append, List.map_append, ← place_eq]
      congr 1
      by_cases list : p.mtype = playlistType
      · have is_list : p.isList := list
        simp [list, is_list]
      · have not_list : ¬ p.isList := list
        simp [list, not_list]
    rwa [owner_eq, lists_eq'] at rep₂
  · intro l
    rw [members₂, members₁, arranged.members, isDirectory_concat, ← way_eq, ← place_eq,
      p.not_isFile, or_assoc]
  · intro q member file there
    rcases (members₂ _).mp there with way | ⟨here, dir_or_list⟩
    · rcases List.mem_append.mp member with old | last
      · rcases (members₁ _).mp way with dir | on_way
        · exact arranged.files q old file dir
        · exact fits.through q old file (way_eq ▸ on_way)
      · rw [List.mem_singleton.mp last] at file way
        exact fresh file.1 way
    · rcases List.mem_append.mp member with old | last
      · exact fits.free q old (place_eq ▸ here)
      · rw [List.mem_singleton.mp last] at file
        exact p.not_isFile.mp dir_or_list file

/-- A document which has no placement changes nothing, and another one is placed. -/
theorem Arranged.addDoc_eq (arranged : Arranged tops t locs places marks) (env : Env) (doc : Doc)
    (docidx : Nat) : addDoc env t doc docidx =
      match placementOf env tops doc docidx with
      | none => some t
      | some p => Folders.place p.docidx p.mtype p.elements ((tops.idxOf p.top : Int) + 1) t := by
  have found := arranged.rep.pathbeyondtopdirs_eq env doc
  unfold addDoc placementOf
  split
  · rfl
  · cases chained : chain env tops doc with
    | none =>
        rw [chained, Option.map_none] at found
        cases beyond : pathbeyondtopdirs env t doc with
        | none => rfl
        | some path =>
            rw [beyond] at found
            have root : path.1 = 0 := by simpa [Option.filter] using found
            simp [root]
    | some top =>
        rw [chained, Option.map_some, Option.filter_eq_some_iff] at found
        have not_root : (tops.idxOf top.1 : Int) + 1 ≠ 0 := by omega
        rw [found.1]
        simp only [not_root, if_false, Option.bind_some]
        split
        · rename_i empty
          split at empty
          · rename_i no_elements
            rw [no_elements, Folders.place]
          · cases empty
        · rename_i p is_p
          split at is_p
          · cases is_p
          · cases is_p
            rfl

end Documents

section Start

variable {tops : List Str}

theorem lookup_tops (elt : Str) (tops : List Str) (start : Nat) :
    ((tops.zipIdx start).map fun top : Str × Nat =>
        ((Name.text top.1, ((top.2 : Int) + 1, -1)) : Name × Ids)).lookup (.text elt) =
      if elt ∈ tops then some (((tops.idxOf elt + start : Nat) : Int) + 1, -1) else none := by
  induction tops generalizing start with
  | nil => rfl
  | cons first rest ih =>
      rw [List.zipIdx_cons, List.map_cons]
      by_cases here : elt = first
      · subst here
        simp
      · have differ : Name.text first ≠ Name.text elt := fun same => here (Name.text.inj same).symm
        rw [Dict.lookup_cons_of_ne differ, ih, List.idxOf_cons_ne _ (Ne.symm here)]
        by_cases member : elt ∈ rest
        · rw [if_pos member, if_pos (List.mem_cons_of_mem _ member)]
          simp only [Nat.succ_eq_add_one, Option.some.injEq, Prod.mk.injEq, and_true]
          push_cast
          omega
        · rw [if_neg member, if_neg (by simp [here, member])]

theorem lookup_tops_bytes (nm : Bytes) (tops : List Str) (start : Nat) :
    ((tops.zipIdx start).map fun top : Str × Nat =>
        ((Name.text top.1, ((top.2 : Int) + 1, -1)) : Name × Ids)).lookup (.bytes nm) = none := by
  induction tops generalizing start with
  | nil => rfl
  | cons first rest ih =>
      rw [List.zipIdx_cons, List.map_cons,
        Dict.lookup_cons_of_ne (show Name.text first ≠ .bytes nm from nofun), ih]

/-- The root as the configuration makes it. -/
theorem foldl_tops (distinct : tops.Nodup) (start : Nat) {dir : Dir}
    (absent : ∀ top ∈ tops, Name.text top ∉ dir.map Prod.fst) :
    (tops.foldl (fun (root : Dir × Nat) d =>
        (Dict.set root.1 (.text d) ((root.2 : Int), -1), root.2 + 1)) (dir, start + 1)).1 =
      dir ++ (tops.zipIdx start).map fun top => (.text top.1, ((top.2 : Int) + 1, -1)) := by
  induction tops generalizing start dir with
  | nil => simp
  | cons first rest ih =>
      obtain ⟨new, distinct⟩ := List.nodup_cons.mp distinct
      rw [List.foldl_cons, Dict.set_of_not_mem (absent first List.mem_cons_self)]
      rw [ih distinct (start + 1)]
      · simp
      · intro top member
        rw [List.map_append, List.mem_append, not_or]
        refine ⟨absent top (List.mem_cons_of_mem _ member), ?_⟩
        rw [List.map_singleton, List.mem_singleton]
        rintro same
        exact new (Name.text.inj same ▸ member)

theorem topTree_dirvec (rcldocs : List Doc) {topdirs : List Str}
    (distinct : (topdirs.map rstripSlash).Nodup) (no_up : "..".toList ∉ topdirs.map rstripSlash) :
    (topTree rcldocs topdirs).dirvec = rootDir (topdirs.map rstripSlash) ::
      (topdirs.map rstripSlash).map fun _ => [(dotdot, (0, -1))] := by
  have root := @foldl_tops _ distinct 0 [(dotdot, (0, -1))] fun top member => by
    rw [List.map_singleton, List.mem_singleton]
    rintro same
    exact no_up (Name.text.inj same ▸ member)
  rw [topTree, rootDir]
  refine congrArg₂ _ root ?_
  rw [List.map_map]
  rfl

/-- The places of the top directories, behind the root. -/
def topLocs (tops : List Str) : List Loc := [] :: tops.map fun top => [top]

theorem mem_topLocs {loc : Loc} : loc ∈ topLocs tops ↔ loc = [] ∨ ∃ top ∈ tops, loc = [top] := by
  simp [topLocs, eq_comm]

theorem topLocs_nodup (distinct : tops.Nodup) : (topLocs tops).Nodup := by
  rw [topLocs, List.nodup_cons]
  exact ⟨by simp, distinct.map fun top top' same => (List.cons.inj same).1⟩

theorem topLocs_idxOf (distinct : tops.Nodup) {top : Str} (member : top ∈ tops) :
    (topLocs tops).idxOf [top] = tops.idxOf top + 1 := by
  have inside := List.idxOf_lt_length_of_mem member
  have in_locs : tops.idxOf top + 1 < (topLocs tops).length := by simpa [topLocs] using inside
  have at_top : (topLocs tops)[tops.idxOf top + 1] = [top] := by simp [topLocs]
  have idx := (topLocs_nodup distinct).idxOf_getElem _ in_locs
  rwa [at_top] at idx

theorem dotdot_ne_bytes (nm : Bytes) : dotdot ≠ .bytes nm := nofun

theorem dirOf_root (distinct : tops.Nodup) (no_up : "..".toList ∉ tops) :
    DirOf (topLocs tops) [] [] 0 [] (rootDir tops) where
  father := by
    rw [rootDir, List.lookup_cons_self, List.dropLast_nil, topLocs, List.idxOf_cons_self]
    rfl
  self deep := absurd deep (by simp)
  below elt not_up _ := by
    have differ : dotdot ≠ Name.text elt := fun same => not_up (Name.text.inj same).symm
    rw [rootDir, Dict.lookup_cons_of_ne differ, lookup_tops, idsOf, List.nil_append]
    by_cases member : elt ∈ tops
    · rw [if_pos member, if_pos (mem_topLocs.mpr (.inr ⟨elt, member, rfl⟩)),
        topLocs_idxOf distinct member, Nat.add_zero]
      rfl
    · rw [if_neg member, if_neg (by simp [topLocs, member])]
      rfl
  lines nm := by
    rw [rootDir, Dict.lookup_cons_of_ne (dotdot_ne_bytes nm)]
    exact lookup_tops_bytes nm tops 0
  distinct := by
    have names : (rootDir tops).map Prod.fst = dotdot :: tops.map Name.text := by
      rw [rootDir, List.map_cons, List.map_map]
      refine congrArg _ ?_
      have firsts := List.zipIdx_map_fst 0 tops
      rw [← congrArg (List.map Name.text) firsts, List.map_map]
      rfl
    rw [names, List.nodup_cons]
    refine ⟨fun member => ?_, distinct.map fun top top' => Name.text.inj⟩
    obtain ⟨top, inside, same⟩ := List.mem_map.mp member
    exact no_up (Name.text.inj same ▸ inside)

theorem dirOf_top {top : Str} (k : Nat) :
    DirOf (topLocs tops) [] [] k [top] [(dotdot, (0, -1))] where
  father := by
    rw [List.lookup_cons_self, topLocs]
    show _ = some ((([] :: tops.map fun top => [top] : List Loc).idxOf [] : Int), -1)
    rw [List.idxOf_cons_self]
    rfl
  self deep := absurd deep (by simp)
  below elt not_up _ := by
    have differ : dotdot ≠ Name.text elt := fun same => not_up (Name.text.inj same).symm
    rw [Dict.lookup_cons_of_ne differ, idsOf, if_neg (by simp [topLocs])]
    rfl
  lines nm := by
    rw [Dict.lookup_cons_of_ne (dotdot_ne_bytes nm)]
    rfl
  distinct := by simp

/-- The tree without documents. -/
theorem arranged_topTree (rcldocs : List Doc) {topdirs : List Str}
    (distinct : (topdirs.map rstripSlash).Nodup) (no_up : "..".toList ∉ topdirs.map rstripSlash) :
    Arranged (topdirs.map rstripSlash) (topTree rcldocs topdirs)
      (topLocs (topdirs.map rstripSlash)) [] [] := by
  have dirvec := topTree_dirvec rcldocs distinct no_up
  generalize topdirs.map rstripSlash = tops at distinct no_up dirvec ⊢
  refine ⟨?_, fun l => by simp [mem_topLocs, IsDirectory], nofun⟩
  constructor
  · simp [dirvec, topLocs]
  · simp [dirvec]
  · exact List.prefix_rfl
  · intro loc member
    rcases mem_topLocs.mp member with root | top
    · exact .inl root
    · exact .inr (.inl top)
  · exact topLocs_nodup distinct
  · intro loc member
    rcases mem_topLocs.mp member with rfl | ⟨top, -, rfl⟩
    · exact member
    · exact mem_topLocs.mpr (.inl rfl)
  · intro loc elt member
    rcases mem_topLocs.mp member with root | ⟨top, top_in, same⟩
    · simp at root
    · obtain ⟨rfl, same⟩ := List.append_inj' (same.trans (List.nil_append [top]).symm) rfl
      rw [(List.cons.inj same).1]
      refine ⟨fun up => no_up (up ▸ top_in), fun _ => ?_⟩
      decide
  · nofun
  · intro k loc dir at_k there
    rw [dirvec] at there
    cases k with
    | zero =>
        cases at_k
        cases there
        exact dirOf_root distinct no_up
    | succ i =>
        rw [topLocs, List.getElem?_cons_succ, List.getElem?_map, Option.map_eq_some_iff] at at_k
        obtain ⟨top, -, rfl⟩ := at_k
        rw [List.getElem?_cons_succ, List.getElem?_map, Option.map_eq_some_iff] at there
        obtain ⟨_, -, rfl⟩ := there
        exact dirOf_top (i + 1)
  · rfl
  · nofun
  · nofun
  · nofun

end Start

section Run

variable {env : Env} {tops : List Str} {t : Folders} {locs : List Loc} {places : List Placement}
  {marks : Marks}

theorem mem_of_chain {doc : Doc} {found : Str × List Str}
    (chained : chain env tops doc = some found) : found.1 ∈ tops := by
  unfold chain at chained
  dsimp only at chained
  split at chained
  · cases chained
  · rw [Option.bind_eq_some_iff] at chained
    obtain ⟨top', found, below⟩ := chained
    split at below
    · cases below
    · cases below
      exact List.mem_of_find?_eq_some found

theorem placementOf_spec {doc : Doc} {docidx : Nat} {p : Placement}
    (found : placementOf env tops doc docidx = some p) :
    p.docidx = docidx ∧ p.mtype = doc.get "mtype" ∧ p.top ∈ tops ∧ p.elements ≠ [] ∧
      chain env tops doc = some (p.top, p.elements) := by
  unfold placementOf at found
  split at found
  · cases found
  · rw [Option.bind_eq_some_iff] at found
    obtain ⟨⟨top, elements⟩, chained, filled⟩ := found
    split at filled
    · cases filled
    · rename_i some_element
      cases filled
      exact ⟨rfl, rfl, mem_of_chain chained, some_element, chained⟩

/-- Documents which fit come to their places. -/
theorem Arranged.addDocs (arranged : Arranged tops t locs places marks) {docs : List Doc}
    {docidx : Nat} (fit : AllFit (places ++ placements env tops docs docidx)) :
    ∃ t' locs', Folders.addDocs env docs docidx t = some t' ∧
      Arranged tops t' locs' (places ++ placements env tops docs docidx) marks ∧
      t'.rcldocs = t.rcldocs ∧ t'.moredocs = t.moredocs := by
  induction docs generalizing t locs places docidx with
  | nil => exact ⟨t, locs, rfl, by simpa [placements] using arranged, rfl, rfl⟩
  | cons doc rest ih =>
      have first := arranged.addDoc_eq env doc docidx
      have behind : placements env tops (doc :: rest) docidx =
          (placementOf env tops doc docidx).toList ++ placements env tops rest (docidx + 1) := by
        rw [placements, List.zipIdx_cons, List.filterMap_cons]
        cases placementOf env tops doc docidx <;> rfl
      rw [behind] at fit ⊢
      rw [Folders.addDocs]
      cases found : placementOf env tops doc docidx with
      | none =>
          rw [found] at first fit
          rw [first, Option.bind_some]
          exact ih arranged fit
      | some p =>
          rw [found] at first fit
          obtain ⟨-, -, top_in, filled, -⟩ := placementOf_spec found
          obtain ⟨t₁, locs₁, placed, arranged₁, docs₁, more₁⟩ :=
            arranged.place (fit places p _ rfl) top_in filled
          dsimp only at first
          rw [first, placed, Option.bind_some]
          rw [Option.toList_some, ← List.append_assoc] at fit ⊢
          obtain ⟨t', locs', added, arranged', docs', more'⟩ := ih arranged₁ fit
          exact ⟨t', locs', added, arranged', docs'.trans docs₁, more'.trans more₁⟩

/-- The tree of documents which all fit. -/
theorem documentTree_arranged {topdirs : List Str} {docs : List Doc}
    (distinct : (topdirs.map rstripSlash).Nodup) (no_up : "..".toList ∉ topdirs.map rstripSlash)
    (fit : AllFit (placements env (topdirs.map rstripSlash) docs)) :
    ∃ t locs, documentTree env topdirs docs = some t ∧
      Arranged (topdirs.map rstripSlash) t locs (placements env (topdirs.map rstripSlash) docs) [] ∧
      t.rcldocs = docs ∧ t.moredocs = [] := by
  obtain ⟨t, locs, built, arranged, same, more⟩ :=
    (arranged_topTree docs distinct no_up).addDocs (by simpa using fit)
  exact ⟨t, locs, built, by simpa using arranged, same, more⟩

end Run

end Upmpdcli.Uprcl.Folders
