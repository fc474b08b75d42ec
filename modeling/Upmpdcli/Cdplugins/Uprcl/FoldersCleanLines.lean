import Upmpdcli.Cdplugins.Uprcl.FoldersClean
import Upmpdcli.Lib.VarMap

set_option autoImplicit false

/- How the playlists are filled without a clash. -/
namespace Upmpdcli.Uprcl.Folders

section Stat

variable {tops : List Str} {t : Folders} {locs : List Loc} {owner : List (Loc × Nat)}
  {lists : List Loc} {marks : Marks} {loc : Loc} {k : Nat} {elt : Str} {dir : Dir}

/-- `_stat` looks into directories only, when no file stands in the way. -/
theorem Represents.cleanStat_iff (rep : Represents tops t locs owner lists marks)
    (at_k : locs[k]? = some loc) (elements : List Str) :
    CleanStat t elements k ↔
      ∀ before l behind, visited loc elements = before ++ l :: behind →
        (∀ l' ∈ before, l' ∈ locs) → l ∈ locs ∨ owner.lookup l = none := by
  induction elements generalizing loc k with
  | nil => exact iff_of_true trivial (by simp [visited])
  | cons elt rest ih =>
      obtain ⟨dir, -, dir_at, dir_of⟩ := rep.dir_at at_k
      have here := List.mem_of_getElem? at_k
      have behind_first : (∀ before l behind, visited loc (elt :: rest) = before ++ l :: behind →
            (∀ l' ∈ before, l' ∈ locs) → l ∈ locs ∨ owner.lookup l = none) ↔
          ∀ before l behind, visited (step loc elt) rest = before ++ l :: behind →
            (∀ l' ∈ before, l' ∈ locs) → l ∈ locs ∨ owner.lookup l = none := by
        constructor
        · intro all before l behind split_at dirs
          refine all (loc :: before) l behind (by rw [visited, split_at]; rfl) ?_
          exact List.forall_mem_cons.mpr ⟨here, dirs⟩
        · intro all before l behind split_at dirs
          cases before with
          | nil =>
              cases split_at
              exact .inl here
          | cons first before =>
              obtain ⟨-, rest_eq⟩ := List.cons.inj split_at
              exact all before l behind rest_eq fun l' member =>
                dirs l' (List.mem_cons_of_mem _ member)
      rw [behind_first, CleanStat, and_iff_right (Int.natCast_nonneg k)]
      have entry : (∀ dir ids, t.dirAt k = some dir → dir.lookup (.text elt) = some ids →
            CleanStat t rest ids.1) ↔
          ∀ ids, dir.lookup (.text elt) = some ids → CleanStat t rest ids.1 := by
        refine ⟨fun clean ids => clean dir ids dir_at, fun clean dir' ids at_k' => ?_⟩
        rw [dir_at, Option.some.injEq] at at_k'
        exact at_k' ▸ clean ids
      rw [entry]
      by_cases is_dir : step loc elt ∈ locs
      · obtain ⟨d, found⟩ := rep.lookup_step at_k dir_of is_dir
        rw [← ih (List.getElem?_idxOf is_dir), found]
        simp
      · have names := rep.names_of_no_dir at_k is_dir
        rw [dir_of.lookup_names names, idsOf, if_neg (names.step ▸ is_dir), ← names.step]
        cases rest with
        | nil =>
            have no_more : ∀ ids : Ids, CleanStat t [] ids.1 := fun _ => trivial
            exact iff_of_true (fun ids _ => no_more ids) (by simp [visited])
        | cons next more =>
            cases owned : owner.lookup (step loc elt) with
            | none =>
                refine iff_of_true (fun _ found => absurd found (Option.some_ne_none _).symm)
                  fun before l behind split_at dirs => ?_
                cases before with
                | nil =>
                    cases split_at
                    exact .inr owned
                | cons first before =>
                    obtain ⟨rfl, -⟩ := List.cons.inj split_at
                    exact absurd (dirs _ List.mem_cons_self) is_dir
            | some i =>
                refine iff_of_false (fun clean => ?_) fun all => ?_
                · have follows : (0 : Int) ≤ -1 := (clean _ rfl).1
                  exact absurd follows (by decide)
                · rcases all [] (step loc elt) _ rfl (List.forall_mem_nil _) with there | free
                  · exact is_dir there
                  · rw [owned] at free
                    cases free

/-- A name without an entry. -/
theorem Represents.lookup_none_iff (rep : Represents tops t locs owner lists marks)
    (at_k : locs[k]? = some loc) (dir_of : DirOf locs owner marks k loc dir) :
    dir.lookup (.text elt) = none ↔
      Names loc elt ∧ loc ++ [elt] ∉ locs ∧ owner.lookup (loc ++ [elt]) = none := by
  constructor
  · intro absent
    have no_dir : step loc elt ∉ locs := by
      intro is_dir
      obtain ⟨d, found⟩ := rep.lookup_step at_k dir_of is_dir
      rw [absent] at found
      cases found
    have names := rep.names_of_no_dir at_k no_dir
    rw [names.step] at no_dir
    rw [dir_of.lookup_names names, idsOf, if_neg no_dir, Option.map_eq_none_iff] at absent
    exact ⟨names, no_dir, absent⟩
  · rintro ⟨names, no_dir, free⟩
    rw [dir_of.lookup_names names, idsOf, if_neg no_dir, free, Option.map_none]

end Stat

section Line

theorem forall_dirAt_iff {t : Folders} {idx : Int} {dir : Dir} (there : t.dirAt idx = some dir)
    {C : Dir → Prop} : (∀ dir', t.dirAt idx = some dir' → C dir') ↔ C dir := by
  simp [there]

variable {env : Env} {tops : List Str} {t : Folders} {locs : List Loc} {places : List Placement}
  {marks : Marks} {line : Line} {docs : List Doc} {s : Shelf}

/-- An address fits when its name is free in the playlist. -/
theorem Arranged.address_iff (arranged : Arranged tops t locs places marks)
    (member : line.list ∈ places) (is_list : line.list.isList) (inside : [] ∉ line.list.way)
    (docidx : Nat) :
    Fits places (line.placement docidx) ↔
      Names line.list.place line.title ∧ line.list.place ++ [line.title] ∉ locs ∧
        (places.map fun p => (p.place, p.docidx)).lookup (line.list.place ++ [line.title]) =
          none := by
  obtain ⟨-, list_in, deep⟩ := arranged.list_place member is_list
  have not_dir : ¬ (line.placement docidx).isDir := by
    show "audio/mpeg".toList ≠ directoryType
    decide
  have on_way : ∀ l ∈ (line.placement docidx).way, l ∈ locs := by
    intro l there
    rw [Line.placement_way, List.mem_append, List.mem_singleton] at there
    rcases there with on_way | rfl
    · exact (arranged.members l).mpr (.inr (.inr ⟨line.list, member, .inl on_way⟩))
    · exact list_in
  constructor
  · intro fits
    have names : Names line.list.place line.title := fits.last line.list.elements line.title rfl
    have place_eq := Line.placement_place docidx names
    rw [← place_eq]
    refine ⟨names, fun there => ?_, lookup_places.mpr fits.free⟩
    refine fits.not_directory not_dir ?_ ((arranged.members _).mp there)
    rw [place_eq, List.length_append, List.length_singleton]
    omega
  · rintro ⟨names, absent, free⟩
    rw [← Line.placement_place docidx names] at absent free
    refine ⟨?_, ?_, lookup_places.mp free, ?_, fun _ => ⟨fun there => ?_, ?_⟩⟩
    · rw [Line.placement_way, List.mem_append, List.mem_singleton, not_or]
      refine ⟨inside, fun root => ?_⟩
      rw [← root] at deep
      simp at deep
    · intro elements elt split
      obtain ⟨rfl, last_eq⟩ := List.append_inj' (split : line.list.elements ++ [line.title] = _) rfl
      cases last_eq
      exact names
    · exact fun q there file on => arranged.files q there file (on_way _ on)
    · exact absent (on_way _ there)
    · intro q there on
      exact absent ((arranged.members _).mpr (.inr (.inr ⟨q, there, .inl on⟩)))

/-- The path of the line ends in a name. -/
def Line.Plain (env : Env) (tops : List Str) (line : Line) : Prop :=
  isUrl line.url = false → ∀ found, chain env tops (docOfPath line.path) = some found →
    ∀ elements elt, found.2 = elements ++ [elt] → elt ≠ "..".toList ∧ elt ≠ ".".toList

/-- The way which `_stat` takes is clean when it leads through no file. -/
theorem Arranged.cleanWay_iff (arranged : Arranged tops t locs places marks) (env : Env)
    (doc : Doc) :
    (∀ fathidx path, pathbeyondtopdirs env t doc = some (fathidx, path) → fathidx ≠ 0 →
        CleanStat t path fathidx) ↔
      ∀ found, chain env tops doc = some found →
        ∀ before l behind, visited [found.1] found.2 = before ++ l :: behind →
          (∀ l' ∈ before, IsDirectory tops places l') → ∀ q ∈ places, q.isFile → q.place ≠ l := by
  rw [arranged.rep.forall_beyond_iff]
  refine forall₂_congr fun found chained => ?_
  refine (arranged.rep.cleanStat_iff (arranged.rep.at_top (mem_of_chain chained)) found.2).trans ?_
  refine forall₄_congr fun before l behind _ => ?_
  rw [arranged.no_file_iff]
  exact imp_congr_left (forall₂_congr fun l' _ => arranged.members l')

/-- A line which fits is entered without a clash. -/
theorem Stocked.cleanLine (stocked : Stocked tops docs locs t s) (member : line.list ∈ s.places)
    (is_list : line.list.isList) (inside : [] ∉ line.list.way)
    (fits : LineFits env tops docs.length s line) :
    CleanLine env line.plpath (locs.idxOf line.list.place) t line.url := by
  obtain ⟨listed, list_in, -⟩ := stocked.arranged.list_place member is_list
  have at_k := List.getElem?_idxOf list_in
  obtain ⟨dir, -, dir_at, dir_of⟩ := stocked.arranged.rep.dir_at at_k
  unfold CleanLine
  rw [forall_dirAt_iff dir_at]
  cases is_url : isUrl line.url with
  | true =>
      rw [if_pos rfl]
      refine (stocked.arranged.rep.lookup_none_iff at_k dir_of).mpr ?_
      exact (stocked.arranged.address_iff member is_list inside s.next).mp (fits.address is_url)
  | false =>
      rw [if_neg (by decide)]
      have way := fits.way is_url
      refine ⟨(stocked.arranged.cleanWay_iff env _).mpr way, fun i found ids entry => ?_⟩
      rw [stocked.arranged.statpath_eq way (fits.last is_url), Option.some.injEq,
        stocked.docs_eq] at found
      rw [dir_of.lines, Option.map_eq_some_iff] at entry
      obtain ⟨j, known, rfl⟩ := entry
      rw [fits.alone is_url i found j known]

/-- A line whose path ends in a name is entered without a clash only when it fits. -/
theorem Stocked.lineFits (stocked : Stocked tops docs locs t s) (member : line.list ∈ s.places)
    (is_list : line.list.isList) (inside : [] ∉ line.list.way) (plain : line.Plain env tops)
    (clean : CleanLine env line.plpath (locs.idxOf line.list.place) t line.url) :
    LineFits env tops docs.length s line := by
  obtain ⟨listed, list_in, -⟩ := stocked.arranged.list_place member is_list
  have at_k := List.getElem?_idxOf list_in
  obtain ⟨dir, -, dir_at, dir_of⟩ := stocked.arranged.rep.dir_at at_k
  unfold CleanLine at clean
  rw [forall_dirAt_iff dir_at] at clean
  cases is_url : isUrl line.url with
  | true =>
      rw [is_url, if_pos rfl] at clean
      have not_path : ¬ isUrl line.url = false := by simp [is_url]
      refine ⟨fun _ => ?_, fun path => absurd path not_path, fun path => absurd path not_path,
        fun path => absurd path not_path⟩
      refine (stocked.arranged.address_iff member is_list inside s.next).mpr ?_
      exact (stocked.arranged.rep.lookup_none_iff at_k dir_of).mp clean
  | false =>
      rw [is_url, if_neg (by decide)] at clean
      obtain ⟨way, alone⟩ := clean
      have way := (stocked.arranged.cleanWay_iff env (docOfPath line.path)).mp way
      have last : ∀ found, chain env tops (docOfPath line.path) = some found →
          ∀ elements elt, found.2 = elements ++ [elt] →
            (∀ l ∈ visited [found.1] found.2, IsDirectory tops s.places l) →
              Names (target [found.1] elements) elt := by
        intro found chained elements elt split_at _
        obtain ⟨no_up, no_self⟩ := plain is_url found chained elements elt split_at
        exact ⟨no_up, fun self => absurd self no_self⟩
      have found := stocked.arranged.statpath_eq way last
      refine ⟨fun url => ?_, fun _ => way, fun _ => last, fun _ i of_line j known => ?_⟩
      · rw [is_url] at url
        cases url
      · rw [stocked.docs_eq, of_line] at found
        have entry : dir.lookup (.bytes (PosixPath.basename line.url)) = some (-1, (j : Int)) := by
          have same := dir_of.lines (PosixPath.basename line.url)
          have key : s.marks.lookup (line.list.place, PosixPath.basename line.url) = some j := known
          rw [key] at same
          exact same
        exact Int.ofNat_inj.mp (Prod.mk.inj (alone i found _ entry)).2

end Line

section Lists

variable {env : Env} {tops : List Str} {t : Folders} {locs : List Loc} {line : Line}
  {docs : List Doc} {s : Shelf} {lists : List Placement} {p : Placement}

/-- The tree while the lines of these playlists come to it. -/
structure Loaded (tops : List Str) (docs : List Doc) (lists : List Placement) (locs : List Loc)
    (t : Folders) (s : Shelf) : Prop where
  stocked : Stocked tops docs locs t s
  below : ∀ p ∈ s.places, [] ∉ p.way
  distinct : (s.places.map Placement.place).Nodup
  lists_in : ∀ p ∈ lists, p ∈ s.places ∧ p.isList

theorem Shelf.places_put (env : Env) (tops : List Str) (count : Nat) (s : Shelf) (line : Line) :
    (s.put env tops count line).places =
      s.places ++ if isUrl line.url then [line.placement s.next] else [] := by
  unfold Shelf.put
  cases isUrl line.url with
  | true => rfl
  | false =>
      simp only [Bool.false_eq_true, if_false, List.append_nil]
      split
      · split <;> rfl
      · rfl

theorem Loaded.addLine (loaded : Loaded tops docs lists locs t s) (member : line.list ∈ lists)
    (fits : LineFits env tops docs.length s line) :
    CleanLine env line.plpath (locs.idxOf line.list.place) t line.url ∧
      ∃ t', Folders.addLine env line.plpath (locs.idxOf line.list.place) t line.url = some t' ∧
        Loaded tops docs lists locs t' (s.put env tops docs.length line) := by
  obtain ⟨inside, is_list⟩ := loaded.lists_in _ member
  refine ⟨loaded.stocked.cleanLine inside is_list (loaded.below _ inside) fits, ?_⟩
  obtain ⟨t', added, stocked'⟩ := loaded.stocked.addLine inside is_list fits
  have places := s.places_put env tops docs.length line
  refine ⟨t', added, stocked', fun p there => ?_, ?_, fun p there => ?_⟩
  · rw [places, List.mem_append] at there
    rcases there with old | new
    · exact loaded.below p old
    · split at new
      · rename_i is_url
        rw [List.mem_singleton.mp new]
        exact (fits.address is_url).inside
      · cases new
  · rw [places, List.map_append]
    split
    · rename_i is_url
      refine List.concat_eq_append ▸ loaded.distinct.concat fun there => ?_
      obtain ⟨q, old, same⟩ := List.mem_map.mp there
      exact (fits.address is_url).free q old same
    · rw [List.map_nil, List.append_nil]
      exact loaded.distinct
  · rw [places]
    exact ⟨List.mem_append_left _ (loaded.lists_in p there).1, (loaded.lists_in p there).2⟩

theorem Loaded.addUrl (member : p ∈ lists) (plpath : Bytes) (t : Folders) (s : Shelf) (url : Bytes)
    (loaded : Loaded tops docs lists locs t s)
    (fits : LineFits env tops docs.length s ⟨p, plpath, url⟩) :
    CleanLine env plpath (locs.idxOf p.place) t url ∧
      ∃ t', Folders.addLine env plpath (locs.idxOf p.place) t url = some t' ∧
        Loaded tops docs lists locs t' (s.put env tops docs.length ⟨p, plpath, url⟩) :=
  loaded.addLine member fits

/-- The lines of a playlist. -/
def listLines (env : Env) (docs : List Doc) (p : Placement) : List Line :=
  match docs[p.docidx]? with
  | none => []
  | some pldoc =>
      ((m3u env (docpath env pldoc)).getD []).map fun url => ⟨p, docpath env pldoc, url⟩

theorem lookup_of_nodup {places : List Placement}
    (distinct : (places.map Placement.place).Nodup) (member : p ∈ places) :
    (places.map fun p => (p.place, p.docidx)).lookup p.place = some p.docidx := by
  have keys : ((places.map fun p => (p.place, p.docidx)).map Prod.fst).Nodup := by
    rwa [List.map_map]
  exact VarMap.lookup_of_mem keys (List.mem_map_of_mem member)

variable (env) in
/-- The path of a playlist, and its lines. -/
theorem Loaded.listOf_eq (loaded : Loaded tops docs lists locs t s) (member : p ∈ lists)
    {pldoc : Doc} (has_doc : docs[p.docidx]? = some pldoc) :
    listOf env t (locs.idxOf p.place) =
      some (docpath env pldoc, (m3u env (docpath env pldoc)).getD []) := by
  obtain ⟨inside, is_list⟩ := loaded.lists_in p member
  obtain ⟨listed, list_in, -⟩ := loaded.stocked.arranged.list_place inside is_list
  obtain ⟨dir, there, dir_at, -⟩ :=
    loaded.stocked.arranged.rep.dir_at (List.getElem?_idxOf list_in)
  obtain ⟨i, owned, self⟩ := loaded.stocked.arranged.rep.list_doc p.place listed dir there
  rw [lookup_of_nodup loaded.distinct inside, Option.some.injEq] at owned
  subst owned
  have in_docs := (List.getElem?_eq_some_iff.mp has_doc).1
  unfold listOf
  simp only [dir_at, self, bind, Option.bind_some, loaded.stocked.docs_eq,
    pyIndex_natCast in_docs, has_doc]
  rfl

/-- The lines of a playlist come to it without a clash when they all fit. -/
theorem Loaded.list (loaded : Loaded tops docs lists locs t s) (member : p ∈ lists)
    (has_doc : p.docidx < docs.length)
    (each : Fold.Each (LineFits env tops docs.length)
      (fun s line => some (s.put env tops docs.length line)) s (listLines env docs p)) :
    CleanList env t (locs.idxOf p.place) ∧
      ∃ t', initplaylist env t (locs.idxOf p.place) = some t' ∧
        Loaded tops docs lists locs t'
          ((listLines env docs p).foldl (Shelf.put env tops docs.length) s) := by
  have there := List.getElem?_eq_getElem has_doc
  have listed := loaded.listOf_eq env member there
  rw [listLines, there] at each ⊢
  dsimp only at each ⊢
  rw [Fold.each_map] at each
  have ran := Fold.run_of_each (fun t s url _ =>
    Loaded.addUrl member (docpath env docs[p.docidx]) t s url) loaded each
  rw [initplaylist_eq, CleanList, listed, List.foldl_map]
  refine ⟨?_, ran.2⟩
  rintro _ ⟨⟩
  exact ran.1

/-- They do so only then, when their paths end in names. -/
theorem Loaded.list_fits (loaded : Loaded tops docs lists locs t s) (member : p ∈ lists)
    (has_doc : p.docidx < docs.length)
    (plain : ∀ line ∈ listLines env docs p, line.Plain env tops)
    (clean : CleanList env t (locs.idxOf p.place)) {t' : Folders}
    (ran : initplaylist env t (locs.idxOf p.place) = some t') :
    Fold.Each (LineFits env tops docs.length)
      (fun s line => some (s.put env tops docs.length line)) s (listLines env docs p) := by
  have there := List.getElem?_eq_getElem has_doc
  have listed := loaded.listOf_eq env member there
  rw [listLines, there] at plain ⊢
  dsimp only at plain ⊢
  rw [initplaylist_eq, listed, Option.bind_some] at ran
  rw [Fold.each_map]
  have each := clean _ listed
  dsimp only at each ran
  refine (Fold.each_iff_run (fun t s url _ =>
    Loaded.addUrl member (docpath env docs[p.docidx]) t s url) ?_ loaded).mpr
    ⟨each, t', ran⟩
  intro t s url _ in_list loaded clean _
  obtain ⟨inside, is_list⟩ := loaded.lists_in p member
  exact loaded.stocked.lineFits inside is_list (loaded.below p inside)
    (plain _ (List.mem_map_of_mem in_list)) clean

end Lists

end Upmpdcli.Uprcl.Folders
