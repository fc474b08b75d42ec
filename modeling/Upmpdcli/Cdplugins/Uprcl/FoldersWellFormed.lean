import Upmpdcli.Cdplugins.Uprcl.FoldersCleanLines

set_option autoImplicit false

/- The well-formedness of the tree: its directories are a tree, whose edges the entries for the
fathers turn round. -/
namespace Upmpdcli.Uprcl.Folders

/-- An entry of a directory for another one, which is below it. -/
def Holds (t : Folders) (f : Nat) (nm : Name) (k : Nat) : Prop :=
  ∃ dir d, t.dirvec[f]? = some dir ∧ dir.lookup nm = some ((k : Int), d) ∧ nm ≠ dotdot ∧
    ¬ (nm = dot ∧ k = f)

def father (t : Folders) (idx : Int) : Option Int :=
  (t.dirAt idx).bind fun dir => (dir.lookup dotdot).map Prod.fst

def fathers (t : Folders) : Nat → Int → Option Int
  | 0, idx => some idx
  | n + 1, idx => (t.father idx).bind (fathers t n)

/-- Each directory but the root is held by its father, which its entry for it leads to, until the
root is reached. The other indexes are those of files. -/
structure WellFormed (t : Folders) : Prop where
  root : t.father 0 = some 0
  held : ∀ k, 0 < k → k < t.dirvec.length → ∃ f nm, t.Holds f nm k
  above : ∀ f nm k, t.Holds f nm k → t.father k = some (f : Int)
  valid : ∀ dir ∈ t.dirvec, ∀ entry ∈ dir,
    entry.2.1 = -1 ∨ ∃ k, k < t.dirvec.length ∧ entry.2.1 = (k : Int)
  reaches : ∀ k < t.dirvec.length, ∃ n, t.fathers n k = some 0

section Tree

variable {tops : List Str} {t : Folders} {locs : List Loc} {owner : List (Loc × Nat)}
  {lists : List Loc} {marks : Marks} {loc : Loc} {k : Nat}

theorem Represents.father_eq (rep : Represents tops t locs owner lists marks)
    (at_k : locs[k]? = some loc) : t.father k = some (locs.idxOf loc.dropLast : Int) := by
  obtain ⟨dir, -, dir_at, dir_of⟩ := rep.dir_at at_k
  rw [father, dir_at, Option.bind_some, dir_of.father]
  rfl

theorem Represents.root_at (rep : Represents tops t locs owner lists marks) :
    locs[0]? = some [] := by
  obtain ⟨behind, rfl⟩ := rep.starts
  rfl

theorem Represents.reaches (rep : Represents tops t locs owner lists marks)
    (at_k : locs[k]? = some loc) : ∃ n, t.fathers n k = some 0 := by
  induction loc using List.reverseRecOn generalizing k with
  | nil =>
      refine ⟨0, ?_⟩
      rw [fathers, ← rep.idxOf_at at_k, rep.idxOf_at rep.root_at]
      rfl
  | append_singleton loc elt ih =>
      have member := rep.closed _ (List.mem_of_getElem? at_k)
      rw [List.dropLast_concat] at member
      obtain ⟨n, reached⟩ := ih (List.getElem?_idxOf member)
      refine ⟨n + 1, ?_⟩
      rw [fathers, rep.father_eq at_k, List.dropLast_concat, Option.bind_some, reached]

/-- An entry is for the father, for the directory itself, for one below it, or for a file. -/
theorem DirOf.entry_cases {dir : Dir} (dir_of : DirOf locs owner marks k loc dir) {nm : Name}
    {ids : Ids} (entry : dir.lookup nm = some ids) :
    (nm = dotdot ∧ ids.1 = (locs.idxOf loc.dropLast : Int)) ∨ (nm = dot ∧ ids.1 = (k : Int)) ∨
      (∃ elt, nm = .text elt ∧ loc ++ [elt] ∈ locs ∧ ids.1 = (locs.idxOf (loc ++ [elt]) : Int)) ∨
        ids.1 = -1 := by
  cases nm with
  | bytes nm =>
      rw [dir_of.lines, Option.map_eq_some_iff] at entry
      obtain ⟨i, -, rfl⟩ := entry
      exact .inr (.inr (.inr rfl))
  | text elt =>
      by_cases up : elt = "..".toList
      · subst up
        rw [show Name.text "..".toList = dotdot from rfl, dir_of.father] at entry
        cases entry
        exact .inl ⟨rfl, rfl⟩
      · by_cases self : elt = ".".toList ∧ 2 ≤ loc.length
        · obtain ⟨d, found⟩ := dir_of.self self.2
          rw [self.1, show Name.text ".".toList = dot from rfl, found] at entry
          cases entry
          exact .inr (.inl ⟨by rw [self.1]; rfl, rfl⟩)
        · have names : Names loc elt := ⟨up, fun dot => by
            by_contra deep
            exact self ⟨dot, by omega⟩⟩
          rw [dir_of.lookup_names names, idsOf] at entry
          split at entry
          · rename_i is_dir
            cases entry
            exact .inr (.inr (.inl ⟨elt, rfl, is_dir, rfl⟩))
          · obtain ⟨i, -, rfl⟩ := Option.map_eq_some_iff.mp entry
            exact .inr (.inr (.inr rfl))

/-- A table which stands for places is well formed. -/
theorem Represents.wellFormed (rep : Represents tops t locs owner lists marks) : t.WellFormed where
  root := by
    have first := rep.father_eq rep.root_at
    rwa [List.dropLast_nil, rep.idxOf_at rep.root_at] at first
  held k below_root inside := by
    rw [rep.size] at inside
    obtain ⟨loc, at_k⟩ : ∃ loc, locs[k]? = some loc := ⟨_, List.getElem?_eq_getElem inside⟩
    have member := List.mem_of_getElem? at_k
    rcases List.eq_nil_or_concat loc with rfl | ⟨above, elt, rfl⟩
    · have first := rep.idxOf_at rep.root_at
      rw [rep.idxOf_at at_k] at first
      omega
    · rw [List.concat_eq_append] at at_k member
      have father_in := rep.closed _ member
      rw [List.dropLast_concat] at father_in
      have names := rep.named above elt member
      obtain ⟨dir, there, -, dir_of⟩ := rep.dir_at (List.getElem?_idxOf father_in)
      have entry : dir.lookup (.text elt) =
          some ((k : Int), docId (owner.lookup (above ++ [elt]))) := by
        rw [dir_of.lookup_names names, idsOf, if_pos member, rep.idxOf_at at_k]
      refine ⟨locs.idxOf above, .text elt, dir, _, there, entry, names.ne_dotdot, ?_⟩
      rintro ⟨-, same⟩
      have at_above := List.getElem?_idxOf father_in
      rw [← same, at_k, Option.some.injEq] at at_above
      simp at at_above
  above f nm k := by
    rintro ⟨dir, d, there, entry, not_up, not_self⟩
    have inside := (List.getElem?_eq_some_iff.mp there).1
    rw [rep.size] at inside
    obtain ⟨loc, at_f⟩ : ∃ loc, locs[f]? = some loc := ⟨_, List.getElem?_eq_getElem inside⟩
    have dir_of := rep.dirs f loc dir at_f there
    rcases dir_of.entry_cases entry with ⟨up, -⟩ | ⟨self, same⟩ | ⟨elt, -, is_dir, same⟩ | file
    · exact absurd up not_up
    · exact absurd ⟨self, Int.ofNat_inj.mp same⟩ not_self
    · have at_k := List.getElem?_idxOf is_dir
      rw [← Int.ofNat_inj.mp same] at at_k
      rw [rep.father_eq at_k, List.dropLast_concat, rep.idxOf_at at_f]
    · have follows : (k : Int) = -1 := file
      omega
  valid dir member entry inside := by
    obtain ⟨f, in_table, rfl⟩ := List.getElem_of_mem member
    have there := List.getElem?_eq_getElem in_table
    have in_locs := in_table
    rw [rep.size] at in_locs
    obtain ⟨loc, at_f⟩ : ∃ loc, locs[f]? = some loc := ⟨_, List.getElem?_eq_getElem in_locs⟩
    have dir_of := rep.dirs f loc _ at_f there
    have index : ∀ other ∈ locs, locs.idxOf other < t.dirvec.length := fun other there =>
      rep.size ▸ List.idxOf_lt_length_of_mem there
    have found := VarMap.lookup_of_mem dir_of.distinct inside
    rcases dir_of.entry_cases found with ⟨-, up⟩ | ⟨-, self⟩ | ⟨elt, -, is_dir, same⟩ | file
    · exact .inr ⟨_, index _ (rep.closed loc (List.mem_of_getElem? at_f)), up⟩
    · exact .inr ⟨f, in_table, self⟩
    · exact .inr ⟨_, index _ is_dir, same⟩
    · exact .inl file
  reaches k inside := by
    rw [rep.size] at inside
    exact rep.reaches (List.getElem?_eq_getElem inside)

end Tree

section Build

variable {env : Env} {topdirs : List Str} {docs : List Doc}

/-- The first directories get names which are not in the root yet. -/
def CleanTops (topdirs : List Str) : Prop :=
  Fold.Each (fun (root : Dir × Nat) d => root.1.lookup (.text d) = none)
    (fun root d => some (Dict.set root.1 (.text d) ((root.2 : Int), -1), root.2 + 1))
    ([(dotdot, (0, -1))], 1) (topdirs.map rstripSlash)

/-- No turn of the build follows an index which is none, or gives a name to something else. -/
structure Clean (env : Env) (topdirs : List Str) (rcldocs : List Doc) : Prop where
  tops : CleanTops topdirs
  docs : Fold.Each (CleanDoc env) (fun t doc => addDoc env t doc.1 doc.2) (topTree rcldocs topdirs)
    rcldocs.zipIdx
  lists : ∀ t, documentTree env topdirs rcldocs = some t →
    Fold.Each (CleanList env) (initplaylist env) t t.playlists

/-- The tree is built without an error and without a clash, and is well formed. -/
def WellBuilt (env : Env) (topdirs : List Str) (rcldocs : List Doc) : Prop :=
  Clean env topdirs rcldocs ∧ ∃ t, rcl2folders env topdirs rcldocs = some t ∧ t.WellFormed

/-- The lines of the playlists, in the order in which they come to the tree. -/
def lines (env : Env) (rcldocs : List Doc) (places : List Placement) : List Line :=
  (places.filter fun p => p.isList).flatMap (listLines env rcldocs)

/-- The top directories, the documents, and then the lines of the playlists have places of their
own. -/
structure Apart (env : Env) (topdirs : List Str) (rcldocs : List Doc) : Prop where
  tops : ("..".toList :: topdirs.map rstripSlash).Nodup
  docs : AllFit (placements env (topdirs.map rstripSlash) rcldocs)
  lines : Fold.Each (LineFits env (topdirs.map rstripSlash) rcldocs.length)
    (fun s line => some (s.put env (topdirs.map rstripSlash) rcldocs.length line))
    ⟨placements env (topdirs.map rstripSlash) rcldocs, [], rcldocs.length⟩
    (lines env rcldocs (placements env (topdirs.map rstripSlash) rcldocs))

/-- No path of a document leads back to the root, and the paths of the lines end in names. -/
structure Straight (env : Env) (topdirs : List Str) (rcldocs : List Doc) : Prop where
  docs : ∀ p ∈ placements env (topdirs.map rstripSlash) rcldocs, [] ∉ p.way
  lines : ∀ line ∈ lines env rcldocs (placements env (topdirs.map rstripSlash) rcldocs),
    line.Plain env (topdirs.map rstripSlash)

theorem each_new_iff (tops : List Str) (root : Dir × Nat) :
    Fold.Each (fun (root : Dir × Nat) d => root.1.lookup (.text d) = none)
        (fun root d => some (Dict.set root.1 (.text d) ((root.2 : Int), -1), root.2 + 1)) root
        tops ↔
      tops.Nodup ∧ ∀ top ∈ tops, root.1.lookup (.text top) = none := by
  induction tops generalizing root with
  | nil => simp [Fold.Each]
  | cons top rest ih =>
      rw [Fold.each_cons_of_some rfl, ih, List.nodup_cons, List.forall_mem_cons]
      have lookup_new : ∀ other ∈ rest,
          (Dict.set root.1 (.text top) ((root.2 : Int), -1)).lookup (.text other) = none ↔
            other ≠ top ∧ root.1.lookup (.text other) = none := by
        intro other _
        rw [Dict.lookup_set]
        by_cases same : other = top
        · simp [same]
        · have differ : Name.text other ≠ .text top := fun name => same (Name.text.inj name)
          simp [same, differ]
      rw [forall₂_congr lookup_new]
      constructor
      · rintro ⟨new, distinct, others⟩
        exact ⟨⟨fun member => (others top member).1 rfl, distinct⟩, new,
          fun other member => (others other member).2⟩
      · rintro ⟨⟨absent, distinct⟩, new, others⟩
        exact ⟨new, distinct, fun other member =>
          ⟨fun same => absent (same ▸ member), others other member⟩⟩

theorem cleanTops_iff (topdirs : List Str) :
    CleanTops topdirs ↔ ("..".toList :: topdirs.map rstripSlash).Nodup := by
  rw [CleanTops, each_new_iff, List.nodup_cons, and_comm]
  refine and_congr_left fun _ => ⟨fun absent member => ?_, fun absent top member => ?_⟩
  · exact absurd (absent _ member) (by decide)
  · have differ : dotdot ≠ .text top := fun same => absent (Name.text.inj same ▸ member)
    rw [Dict.lookup_cons_of_ne differ]
    rfl

theorem AllFit.distinct {places : List Placement} (fit : AllFit places) :
    (places.map Placement.place).Nodup := by
  induction places using List.reverseRecOn with
  | nil => exact List.nodup_nil
  | append_singleton front p ih =>
      have before := ih fun before q behind split =>
        fit before q (behind ++ [p]) (by rw [split, List.append_assoc]; rfl)
      rw [List.map_append, List.map_singleton, ← List.concat_eq_append]
      refine before.concat fun there => ?_
      obtain ⟨q, member, same⟩ := List.mem_map.mp there
      exact (fit front p [] rfl).free q member same

theorem docidx_lt {tops : List Str} {p : Placement} (member : p ∈ placements env tops docs) :
    p.docidx < docs.length := by
  obtain ⟨doc, there, placed⟩ := List.mem_filterMap.mp member
  rw [(placementOf_spec placed).1]
  simpa using List.snd_lt_add_of_mem_zipIdx there

/-- The tree of documents which all fit, to which the lines come. -/
theorem Grown.loaded {tops : List Str} {t : Folders}
    (grown : Grown tops docs t (placements env tops docs))
    (fit : AllFit (placements env tops docs)) :
    ∃ locs, Loaded tops docs ((placements env tops docs).filter fun p => p.isList) locs t
        ⟨placements env tops docs, [], docs.length⟩ ∧
      t.playlists = ((placements env tops docs).filter fun p => p.isList).map
        fun p => locs.idxOf p.place := by
  obtain ⟨locs, arranged, docs_eq, none_more⟩ := grown
  refine ⟨locs, ⟨⟨arranged, docs_eq, by simp [none_more]⟩, ?_, ?_, fun p member => ?_⟩, ?_⟩
  · intro p member
    obtain ⟨before, behind, split⟩ := List.append_of_mem member
    exact (fit before p behind split).inside
  · exact fit.distinct
  · exact ⟨List.mem_of_mem_filter member, by simpa using List.of_mem_filter member⟩
  · rw [arranged.rep.playlists, List.map_map]
    rfl

theorem Loaded.turn {tops : List Str} {locs : List Loc} (t : Folders) (s : Shelf) (p : Placement)
    (member : p ∈ (placements env tops docs).filter fun p => p.isList)
    (loaded : Loaded tops docs ((placements env tops docs).filter fun p => p.isList) locs t s)
    (each : Fold.Each (LineFits env tops docs.length)
      (fun s line => some (s.put env tops docs.length line)) s (listLines env docs p)) :
    CleanList env t (locs.idxOf p.place) ∧
      ∃ t', initplaylist env t (locs.idxOf p.place) = some t' ∧
        Loaded tops docs ((placements env tops docs).filter fun p => p.isList) locs t'
          ((listLines env docs p).foldl (Shelf.put env tops docs.length) s) :=
  loaded.list member (docidx_lt (List.mem_of_mem_filter member)) each

theorem grown_topTree (rcldocs : List Doc) {topdirs : List Str}
    (tops : ("..".toList :: topdirs.map rstripSlash).Nodup) :
    Grown (topdirs.map rstripSlash) rcldocs (topTree rcldocs topdirs) [] := by
  obtain ⟨no_up, distinct⟩ := List.nodup_cons.mp tops
  exact ⟨_, arranged_topTree rcldocs distinct no_up, rfl, rfl⟩

/-- What has a place of its own comes to a tree which stands for the places. -/
theorem Apart.represents (apart : Apart env topdirs docs) :
    Clean env topdirs docs ∧ ∃ t locs owner lists marks, rcl2folders env topdirs docs = some t ∧
      Represents (topdirs.map rstripSlash) t locs owner lists marks := by
  obtain ⟨clean, t, built, grown⟩ := (grown_topTree docs apart.tops).run apart.docs
  obtain ⟨locs, loaded, playlists⟩ := grown.loaded apart.docs
  have each := apart.lines
  rw [Folders.lines, Fold.each_flatMap] at each
  obtain ⟨cleanLists, t', filled, loaded'⟩ := Fold.run_of_each Loaded.turn loaded each
  refine ⟨⟨(cleanTops_iff topdirs).mpr apart.tops, clean, fun t₁ same => ?_⟩, t', _, _, _, _, ?_,
    loaded'.stocked.arranged.rep⟩
  · rw [documentTree, built, Option.some.injEq] at same
    rw [← same, playlists]
    exact Fold.each_map.mpr cleanLists
  · rw [rcl2folders, documentTree, built, Option.bind_some, initplaylists, playlists,
      List.foldlM_map]
    exact filled

/-- Such a tree is well formed. -/
theorem Apart.wellBuilt (apart : Apart env topdirs docs) : WellBuilt env topdirs docs := by
  obtain ⟨clean, t, _, _, _, _, built, rep⟩ := apart.represents
  exact ⟨clean, t, built, rep.wellFormed⟩

/-- Where every path is straight, only that comes to it. -/
theorem WellBuilt.apart (wellBuilt : WellBuilt env topdirs docs)
    (straight : Straight env topdirs docs) : Apart env topdirs docs := by
  obtain ⟨clean, t', ran, -⟩ := wellBuilt
  obtain ⟨t₁, built, filled⟩ := Option.bind_eq_some_iff.mp ran
  have tops := (cleanTops_iff topdirs).mp clean.tops
  have start := grown_topTree docs tops
  have fit := start.fit straight.docs clean.docs ⟨t₁, built⟩
  obtain ⟨-, t₂, built₂, grown⟩ := start.run fit
  rw [← documentTree, built, Option.some.injEq] at built₂
  subst built₂
  obtain ⟨locs, loaded, playlists⟩ := grown.loaded fit
  have cleanLists := clean.lists t₁ built
  rw [playlists, Fold.each_map] at cleanLists
  rw [initplaylists, playlists, List.foldlM_map] at filled
  refine ⟨tops, fit, ?_⟩
  rw [Folders.lines, Fold.each_flatMap]
  refine (Fold.each_iff_run Loaded.turn ?_ loaded).mpr ⟨cleanLists, t', filled⟩
  intro t s p t₂ member loaded clean ran
  refine loaded.list_fits member (docidx_lt (List.mem_of_mem_filter member)) ?_ clean ran
  exact fun line there => straight.lines line (List.mem_flatMap.mpr ⟨p, member, there⟩)

/-- The tree is well built when everything has a place of its own. Where every path is straight,
it is so only then. -/
theorem wellBuilt_iff_apart (env : Env) (topdirs : List Str) (rcldocs : List Doc) :
    (Apart env topdirs rcldocs → WellBuilt env topdirs rcldocs) ∧
      (Straight env topdirs rcldocs →
        (WellBuilt env topdirs rcldocs ↔ Apart env topdirs rcldocs)) :=
  ⟨Apart.wellBuilt, fun straight => ⟨fun built => built.apart straight, Apart.wellBuilt⟩⟩

/-- A track with the name of the first element of the group of another one. -/
def groupedInFile : List Doc :=
  [docAt "audio/mpeg" "/m/x", docAt "audio/mpeg" "/m/b.mp3" [("group", "x/y")]]

/-- The second directory of the group becomes its own entry, and its father is the last directory,
which it is itself. -/
theorem not_wellBuilt_group :
    ¬ ∀ (env : Env) (topdirs : List Str) (rcldocs : List Doc), WellBuilt env topdirs rcldocs := by
  intro claim
  obtain ⟨-, t, built, wellFormed⟩ := claim (bareEnv []) ["/m".toList] groupedInFile
  have table : (rcl2folders (bareEnv []) ["/m".toList] groupedInFile).map (fun t =>
      (t.dirvec.length, t.father 2, t.father (-1))) = some (3, some (-1), some (-1)) := by
    decide
  rw [built, Option.map_some, Option.some.injEq, Prod.mk.injEq, Prod.mk.injEq] at table
  obtain ⟨three, first, again⟩ := table
  have loops : ∀ n, t.fathers n (-1) = some (-1) := by
    intro n
    induction n with
    | zero => rfl
    | succ n ih => rw [fathers, again, Option.bind_some, ih]
  obtain ⟨n, reached⟩ := wellFormed.reaches 2 (by omega)
  cases n with
  | zero => simp [fathers] at reached
  | succ n =>
      rw [fathers, show (((2 : Nat) : Int)) = 2 from rfl, first, Option.bind_some, loops] at reached
      exact absurd reached (by decide)

end Build

end Upmpdcli.Uprcl.Folders
