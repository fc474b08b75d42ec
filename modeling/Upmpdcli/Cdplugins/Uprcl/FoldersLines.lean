import Upmpdcli.Cdplugins.Uprcl.FoldersPlace
import Upmpdcli.Lib.Fold

set_option autoImplicit false

/- How the lines of the playlists come to the tree. -/
namespace Upmpdcli.Uprcl.Folders

/-- A line of a playlist which has a place in the tree. -/
structure Line where
  list : Placement
  plpath : Bytes
  url : Bytes

namespace Line

def title (line : Line) : Str := (docforurl line.url).get "title"

def path (line : Line) : Bytes :=
  if PosixPath.isabs line.url then line.url
  else PosixPath.join (PosixPath.dirname line.plpath) line.url

/-- The playlist of the line, and the name which the line has in it. -/
def key (line : Line) : Loc × Bytes := (line.list.place, PosixPath.basename line.url)

/-- An address comes to the tree as a file in the directory of its playlist. -/
def placement (line : Line) (docidx : Nat) : Placement where
  docidx
  mtype := "audio/mpeg".toList
  top := line.list.top
  elements := line.list.elements ++ [line.title]

/-- The document which the path of a line means. The documents of addresses do not count. -/
def doc (env : Env) (tops : List Str) (count : Nat) (places : List Placement) (line : Line) :
    Option Nat :=
  (chain env tops (docOfPath line.path)).bind fun found =>
    if ∀ l ∈ visited [found.1] found.2, IsDirectory tops places l then
      ((places.map fun p => (p.place, p.docidx)).lookup (target [found.1] found.2)).filter
        (· < count)
    else none

end Line

/-- What has come to the tree: the places of documents and of addresses, the lines which are
paths, and the index for the next address. -/
structure Shelf where
  places : List Placement
  marks : Marks
  next : Nat

def Shelf.put (env : Env) (tops : List Str) (count : Nat) (s : Shelf) (line : Line) : Shelf :=
  if isUrl line.url then
    { s with places := s.places ++ [line.placement s.next], next := s.next + 1 }
  else
    match line.doc env tops count s.places with
    | some (i + 1) =>
        if (s.marks.lookup line.key).isSome then s
        else { s with marks := s.marks ++ [(line.key, i + 1)] }
    | _ => s

/-- A line can come to the tree: an address is a name which is free, a path leads through no
file and ends in a name, and its own name does not stand for another document. -/
structure LineFits (env : Env) (tops : List Str) (count : Nat) (s : Shelf) (line : Line) :
    Prop where
  address : isUrl line.url → Fits s.places (line.placement s.next)
  way : isUrl line.url = false → ∀ found, chain env tops (docOfPath line.path) = some found →
    ∀ before l behind, visited [found.1] found.2 = before ++ l :: behind →
      (∀ l' ∈ before, IsDirectory tops s.places l') → ∀ q ∈ s.places, q.isFile → q.place ≠ l
  last : isUrl line.url = false → ∀ found, chain env tops (docOfPath line.path) = some found →
    ∀ elements elt, found.2 = elements ++ [elt] →
      (∀ l ∈ visited [found.1] found.2, IsDirectory tops s.places l) →
        Names (target [found.1] elements) elt
  alone : isUrl line.url = false → ∀ i, line.doc env tops count s.places = some (i + 1) →
    ∀ j, s.marks.lookup line.key = some j → j = i + 1

section Stat

variable {tops : List Str} {t : Folders} {locs : List Loc} {owner : List (Loc × Nat)}
  {lists : List Loc} {marks : Marks} {loc : Loc} {k : Nat}

theorem forall_visited_nil {p : Loc → Prop} (loc : Loc) : ∀ l ∈ visited loc [], p l :=
  List.forall_mem_nil _

/-- `_stat` finds the document of a place, when no file stands in the way. -/
theorem Represents.statFrom_eq (rep : Represents tops t locs owner lists marks)
    (at_k : locs[k]? = some loc) (elements : List Str) (d : Int)
    (way : ∀ before l behind, visited loc elements = before ++ l :: behind →
      (∀ l' ∈ before, l' ∈ locs) → l ∈ locs ∨ owner.lookup l = none)
    (last : ∀ front elt, elements = front ++ [elt] → (∀ l ∈ visited loc elements, l ∈ locs) →
      Names (target loc front) elt)
    (known : elements = [] → d = docId (owner.lookup loc)) :
    (statFrom t elements (k, d)).map Prod.snd =
      some (if ∀ l ∈ visited loc elements, l ∈ locs then docId (owner.lookup (target loc elements))
        else -1) := by
  induction elements generalizing loc k d with
  | nil =>
      rw [statFrom, Option.map_some, known rfl, if_pos (forall_visited_nil loc)]
      rfl
  | cons elt rest ih =>
      obtain ⟨dir, -, dir_at, dir_of⟩ := rep.dir_at at_k
      have here := List.mem_of_getElem? at_k
      have all : (∀ l ∈ visited loc (elt :: rest), l ∈ locs) ↔
          ∀ l ∈ visited (step loc elt) rest, l ∈ locs := by
        rw [visited, List.forall_mem_cons]
        exact and_iff_right here
      have way' : ∀ before l behind, visited (step loc elt) rest = before ++ l :: behind →
          (∀ l' ∈ before, l' ∈ locs) → l ∈ locs ∨ owner.lookup l = none := by
        intro before l behind split_at dirs
        refine way (loc :: before) l behind (by rw [visited, split_at]; rfl) ?_
        exact List.forall_mem_cons.mpr ⟨here, dirs⟩
      have last' : ∀ front other, rest = front ++ [other] →
          (∀ l ∈ visited (step loc elt) rest, l ∈ locs) →
            Names (target (step loc elt) front) other :=
        fun front other same dirs => last (elt :: front) other (by rw [same]; rfl) (all.mpr dirs)
      have names : rest = [] → Names loc elt := fun single => by
        subst single
        exact last [] elt rfl (all.mpr (forall_visited_nil _))
      rw [statFrom]
      simp only [dir_at, bind, Option.bind_some, if_congr all rfl rfl]
      by_cases is_dir : step loc elt ∈ locs
      · obtain ⟨d', found⟩ := rep.lookup_step at_k dir_of is_dir
        rw [found]
        refine ih (List.getElem?_idxOf is_dir) _ way' last' fun single => ?_
        have name := names single
        rw [name.step] at is_dir found ⊢
        rw [dir_of.lookup_names name, idsOf, if_pos is_dir] at found
        exact (Prod.mk.inj (Option.some.inj found)).2.symm
      · have name := rep.names_of_no_dir at_k is_dir
        rw [name.step] at is_dir way' last' ⊢
        rw [dir_of.lookup_names name, idsOf, if_neg is_dir]
        cases free : owner.lookup (loc ++ [elt]) with
        | none =>
            simp only [Option.map_none, Option.map_some]
            cases rest with
            | nil =>
                rw [if_pos (forall_visited_nil (loc ++ [elt]))]
                simp [target, name.step, free, docId]
            | cons next more => rw [if_neg fun dirs => is_dir (dirs _ List.mem_cons_self)]
        | some i =>
            cases rest with
            | nil =>
                simp only [Option.map_some, statFrom]
                rw [if_pos (forall_visited_nil (loc ++ [elt]))]
                simp [target, name.step, free, docId]
            | cons next more =>
                rcases way' [] (loc ++ [elt]) (visited (step (loc ++ [elt]) next) more) rfl
                  (List.forall_mem_nil _)
                  with there | no_doc
                · exact absurd there is_dir
                · rw [free] at no_doc
                  cases no_doc

end Stat

section Lines

variable {env : Env} {tops : List Str} {t : Folders} {locs : List Loc} {places : List Placement}
  {marks : Marks} {line : Line}

theorem Arranged.stat_eq (arranged : Arranged tops t locs places marks) (env : Env) (doc : Doc) :
    stat env t doc =
      match chain env tops doc with
      | none => some (-1, -1)
      | some found => statFrom t found.2 (((tops.idxOf found.1 + 1 : Nat) : Int), -1) := by
  have found := arranged.rep.pathbeyondtopdirs_eq env doc
  unfold stat
  cases chained : chain env tops doc with
  | none =>
      rw [chained, Option.map_none] at found
      cases beyond : pathbeyondtopdirs env t doc with
      | none => rfl
      | some path =>
          rw [beyond] at found
          have root : path.1 = 0 := by simpa [Option.filter] using found
          simp [root]
  | some top =>
      rw [chained, Option.map_some, Option.filter_eq_some_iff] at found
      have not_root : (tops.idxOf top.1 : Int) + 1 ≠ 0 := by omega
      rw [found.1]
      simp only [not_root, if_false]
      rfl

/-- The document which a line is found to mean. -/
theorem Arranged.statpath_eq (arranged : Arranged tops t locs places marks)
    (way : ∀ found, chain env tops (docOfPath line.path) = some found →
      ∀ before l behind, visited [found.1] found.2 = before ++ l :: behind →
        (∀ l' ∈ before, IsDirectory tops places l') → ∀ q ∈ places, q.isFile → q.place ≠ l)
    (last : ∀ found, chain env tops (docOfPath line.path) = some found →
      ∀ elements elt, found.2 = elements ++ [elt] →
        (∀ l ∈ visited [found.1] found.2, IsDirectory tops places l) →
          Names (target [found.1] elements) elt) :
    statpath env t line.plpath line.url = some (line.doc env tops t.rcldocs.length places) := by
  have path : (if PosixPath.isabs line.url then line.url
      else PosixPath.join (PosixPath.dirname line.plpath) line.url) = line.path := rfl
  unfold statpath Line.doc
  dsimp only
  rw [path, arranged.stat_eq]
  cases chained : chain env tops (docOfPath line.path) with
  | none => rfl
  | some found =>
      have at_top := arranged.rep.at_top (mem_of_chain chained)
      have dirs : (∀ l ∈ visited [found.1] found.2, l ∈ locs) ↔
          ∀ l ∈ visited [found.1] found.2, IsDirectory tops places l :=
        forall₂_congr fun l _ => arranged.members l
      have stated := arranged.rep.statFrom_eq at_top found.2 (-1)
        (fun before l behind split_at dirs => by
          have no_file := way found chained before l behind split_at fun l' member =>
            (arranged.members l').mp (dirs l' member)
          by_cases there : l ∈ locs
          · exact .inl there
          · refine .inr (lookup_places.mpr fun q member at_l => ?_)
            refine no_file q member ?_ at_l
            by_contra not_file
            exact there ((arranged.members l).mpr
              (.inr (.inr ⟨q, member, .inr ⟨at_l.symm, not_file⟩⟩))))
        (fun front elt split_at all => last found chained front elt split_at (dirs.mp all))
        (fun _ => by
          have none_there : (places.map fun p => (p.place, p.docidx)).lookup [found.1] = none := by
            cases there : (places.map fun p => (p.place, p.docidx)).lookup [found.1] with
            | none => rfl
            | some i => exact absurd (arranged.rep.father_of_owner there).1 (by simp)
          rw [none_there]
          rfl)
      dsimp only [Option.bind_some]
      rw [if_congr dirs rfl rfl] at stated
      obtain ⟨ids, is_ids, second⟩ := Option.map_eq_some_iff.mp stated
      rw [is_ids, Option.map_some, second]
      split
      · cases owned : (places.map fun p => (p.place, p.docidx)).lookup
            (target [found.1] found.2) with
        | none => simp [docId]
        | some i =>
            simp only [docId, Option.map_some, Option.getD_some, Int.natCast_nonneg, true_and,
              Int.ofNat_lt, Option.filter_some, decide_eq_true_eq, Int.toNat_natCast]
      · rfl

/-- The tree with what has come to it. -/
structure Stocked (tops : List Str) (docs : List Doc) (locs : List Loc) (t : Folders) (s : Shelf) :
    Prop where
  arranged : Arranged tops t locs s.places s.marks
  docs_eq : t.rcldocs = docs
  next : s.next = docs.length + t.moredocs.length

variable {docs : List Doc} {s : Shelf}

theorem Represents.with_moredocs {owner : List (Loc × Nat)} {lists : List Loc}
    (rep : Represents tops t locs owner lists marks) (more : List Doc) :
    Represents tops { t with moredocs := more } locs owner lists marks :=
  ⟨rep.size, rep.root, rep.starts, rep.deep, rep.distinct, rep.closed, rep.named,
    rep.owners, rep.dirs, rep.playlists, rep.lists_in, rep.marked, rep.list_doc⟩

/-- The directory of a playlist. -/
theorem Arranged.list_place (arranged : Arranged tops t locs places marks) {p : Placement}
    (member : p ∈ places) (is_list : p.isList) :
    p.place ∈ (places.filter fun p => p.isList).map Placement.place ∧ p.place ∈ locs ∧
      2 ≤ p.place.length := by
  have listed : p.place ∈ (places.filter fun p => p.isList).map Placement.place :=
    List.mem_map.mpr ⟨p, List.mem_filter.mpr ⟨member, by simpa using is_list⟩, rfl⟩
  have inside := arranged.rep.lists_in _ listed
  have size := List.idxOf_lt_length_of_mem inside
  rw [← arranged.rep.size] at size
  obtain ⟨i, owned, -⟩ :=
    arranged.rep.list_doc _ listed _ (List.getElem?_eq_getElem size)
  exact ⟨listed, inside, (arranged.rep.father_of_owner owned).1⟩

theorem Line.placement_place (docidx : Nat) (names : Names line.list.place line.title) :
    (line.placement docidx).place = line.list.place ++ [line.title] := by
  rw [Placement.place, Line.placement, target_concat]
  exact names.step

theorem Line.placement_way (docidx : Nat) :
    (line.placement docidx).way = line.list.way ++ [line.list.place] :=
  visited_concat _ _ _

/-- An address comes to the directory of its playlist. -/
theorem Stocked.address (stocked : Stocked tops docs locs t s) (member : line.list ∈ s.places)
    (is_list : line.list.isList) (fits : Fits s.places (line.placement s.next)) :
    ∃ t', ({ t with moredocs := t.moredocs ++ [docforurl line.url] } : Folders).setEntry
        (locs.idxOf line.list.place) (.text line.title) (-1, (s.next : Int)) = some t' ∧
      Stocked tops docs locs t'
        { s with places := s.places ++ [line.placement s.next], next := s.next + 1 } := by
  obtain ⟨listed, inside, deep⟩ := stocked.arranged.list_place member is_list
  have at_k := List.getElem?_idxOf inside
  have names : Names line.list.place line.title := fits.last line.list.elements line.title rfl
  have place_eq := Line.placement_place s.next names
  have not_dir : ¬ (line.placement s.next).isDir := by
    show "audio/mpeg".toList ≠ directoryType
    decide
  have file : (line.placement s.next).isFile := by
    refine ⟨not_dir, ?_⟩
    show "audio/mpeg".toList ≠ playlistType
    decide
  have free : (s.places.map fun p => (p.place, p.docidx)).lookup
      (line.list.place ++ [line.title]) = none := by
    rw [← place_eq]
    exact lookup_places.mpr fits.free
  have absent : line.list.place ++ [line.title] ∉ locs := by
    rw [← place_eq]
    intro there
    refine fits.not_directory not_dir ?_ ((stocked.arranged.members _).mp there)
    rw [place_eq]
    simp
    omega
  have below_root : line.list.place ≠ [] := by
    intro root
    rw [root] at deep
    simp at deep
  obtain ⟨t', set, rep', docs', more'⟩ :=
    (stocked.arranged.rep.with_moredocs (t.moredocs ++ [docforurl line.url])).setDoc at_k
      below_root names free s.next
  rw [if_neg absent] at set
  refine ⟨t', set, ⟨?_, ?_, ?_⟩, docs'.trans stocked.docs_eq, ?_⟩
  · have not_list : ¬ (line.placement s.next).isList := file.2
    have owner_eq : withOwner (s.places.map fun p => (p.place, p.docidx))
        (line.list.place ++ [line.title]) (some s.next) =
          (s.places ++ [line.placement s.next]).map fun p => (p.place, p.docidx) := by
      rw [List.map_append, List.map_singleton, place_eq]
      rfl
    have lists_eq : ((s.places ++ [line.placement s.next]).filter fun p => p.isList) =
        s.places.filter fun p => p.isList := by
      rw [List.filter_append, List.filter_singleton]
      simp [not_list]
    rw [owner_eq] at rep'
    rwa [lists_eq]
  · intro l
    rw [stocked.arranged.members, isDirectory_concat, Line.placement_way, List.mem_append,
      List.mem_singleton]
    constructor
    · exact .inl
    · rintro (old | (on_way | here) | ⟨-, not_file⟩)
      · exact old
      · exact .inr (.inr ⟨line.list, member, .inl on_way⟩)
      · exact .inr (.inr ⟨line.list, member, .inr ⟨here, fun is_file => is_file.2 is_list⟩⟩)
      · exact absurd file not_file
  · intro q there q_file
    rcases List.mem_append.mp there with old | last
    · exact stocked.arranged.files q old q_file
    · rw [List.mem_singleton.mp last, place_eq]
      exact absent
  · have length : t'.moredocs.length = t.moredocs.length + 1 := by
      rw [more', List.length_append]
      rfl
    dsimp only
    rw [length, stocked.next]
    omega

/-- A path comes to the directory of its playlist, unless its name is there already. -/
theorem Stocked.path (stocked : Stocked tops docs locs t s) (member : line.list ∈ s.places)
    (is_list : line.list.isList) {i : Nat}
    (alone : ∀ j, s.marks.lookup line.key = some j → j = i + 1) :
    ∃ t', t.setEntry (locs.idxOf line.list.place) (.bytes (PosixPath.basename line.url))
        (-1, ((i + 1 : Nat) : Int)) = some t' ∧
      Stocked tops docs locs t'
        (if (s.marks.lookup line.key).isSome then s
          else { s with marks := s.marks ++ [(line.key, i + 1)] }) := by
  obtain ⟨listed, inside, -⟩ := stocked.arranged.list_place member is_list
  have at_k := List.getElem?_idxOf inside
  cases known : s.marks.lookup line.key with
  | none =>
      obtain ⟨t', set, rep', docs', more'⟩ :=
        stocked.arranged.rep.addMark at_k listed known (i + 1)
      exact ⟨t', set, ⟨rep', stocked.arranged.members, stocked.arranged.files⟩,
        docs'.trans stocked.docs_eq, by simpa [more'] using stocked.next⟩
  | some j =>
      obtain ⟨dir, there, -, dir_of⟩ := stocked.arranged.rep.dir_at at_k
      have entry : dir.lookup (.bytes (PosixPath.basename line.url)) =
          some (-1, ((i + 1 : Nat) : Int)) := by
        have same := dir_of.lines (PosixPath.basename line.url)
        have key : s.marks.lookup (line.list.place, PosixPath.basename line.url) = some j := known
        rw [key, alone j known] at same
        exact same
      have size := (List.getElem?_eq_some_iff.mp there).1
      refine ⟨t, ?_, by simpa using stocked⟩
      rw [setEntry_natCast size, modify_eq_self there (Dict.set_eq_self entry)]

/-- A line which fits comes to the tree. -/
theorem Stocked.addLine (stocked : Stocked tops docs locs t s) (member : line.list ∈ s.places)
    (is_list : line.list.isList) (fits : LineFits env tops docs.length s line) :
    ∃ t', Folders.addLine env line.plpath (locs.idxOf line.list.place) t line.url = some t' ∧
      Stocked tops docs locs t' (s.put env tops docs.length line) := by
  have docs_eq := stocked.docs_eq
  unfold Folders.addLine Shelf.put
  cases is_url : isUrl line.url with
  | true =>
      obtain ⟨t', set, stocked'⟩ := stocked.address member is_list (fits.address is_url)
      have next : (t.rcldocs.length : Int) +
          ((t.moredocs ++ [docforurl line.url]).length : Int) - 1 =
          (s.next : Int) := by
        rw [stocked.next, docs_eq, List.length_append, List.length_singleton]
        push_cast
        omega
      refine ⟨t', ?_, stocked'⟩
      simp only [if_true, next]
      exact set
  | false =>
      rw [← docs_eq] at fits
      have found := stocked.arranged.statpath_eq (fits.way is_url) (fits.last is_url)
      simp only [Bool.false_eq_true, if_false, found, bind, Option.bind_some]
      rw [docs_eq]
      cases of_line : line.doc env tops docs.length s.places with
      | none => exact ⟨t, rfl, stocked⟩
      | some n =>
          cases n with
          | zero => exact ⟨t, rfl, stocked⟩
          | succ i =>
              rw [docs_eq] at fits
              exact stocked.path member is_list (fits.alone is_url i of_line)

end Lines

end Upmpdcli.Uprcl.Folders
