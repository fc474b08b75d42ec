import Upmpdcli.Cdplugins.Uprcl.FoldersDirpath
import Upmpdcli.Cdplugins.Uprcl.TagsPlaced

set_option autoImplicit false

/- Which folders the Tag View is right for. -/
namespace Upmpdcli.Uprcl

/-- The Tag View of a directory selects what belongs to the tracks below its path. -/
def TagTree.ViewSelects (t : TagTree) (tree : Folders) (idx : Int) (path : Str) : Prop :=
  ∃ folder, tree.dirpath idx = some folder ∧ t.Selects folder path

/-- The address of a track is the path of its file, which is a name in its folder. -/
def PlainFiles (env : Env) (rcldocs : List Doc) : Prop :=
  ∀ doc ∈ rcldocs, isTrack doc → trackPath doc = filePath env doc ∧
    ∃ folder name, fileFolder env doc = some folder ∧ '/' ∉ name ∧
      filePath env doc = folder ++ name

section Exact

variable {env : Env} {conf : TagConf} {earlier : List Str} {rcldocs : List Doc} {tags : Tags}
  {db : Db} {tree : Folders} {idx : Int} {names : List Str}

theorem pathOf_ne_nil (some_name : names ≠ []) : Folders.pathOf names ≠ [] := by
  cases names with
  | nil => exact absurd rfl some_name
  | cons nm rest => simp [Folders.pathOf]

/-- A path ends with a slash. -/
theorem exists_pathOf_eq (some_name : names ≠ []) :
    ∃ before, Folders.pathOf names = before ++ ['/'] := by
  obtain ⟨above, nm, rfl⟩ := List.eq_nil_or_concat names |>.resolve_left some_name
  refine ⟨Folders.pathOf above ++ nm, ?_⟩
  simp [Folders.pathOf]

/-- The Tag View of a directory is right exactly when the pattern which is made for it tells the
tracks below it: its path, or the root when it has more than 200 names. -/
theorem viewSelects_iff (lower : Str → Str)
    (made : recolltosql env conf (tablesAfter conf earlier alltagtotable) rcldocs =
      some (tags, db)) (rises : tree.Rises idx names) :
    (TagTree.ofTables lower made).ViewSelects tree idx (Folders.pathOf names) ↔
      if names.length ≤ 200 then
        (TagTree.ofTables lower made).Fits (Folders.pathOf names) (Folders.pathOf names)
      else (TagTree.ofTables lower made).Fits "/".toList (Folders.pathOf names) := by
  have placed := filesPlaced_ofTables lower made
  have selects_folder {folder : Str} (found : tree.dirpath idx = some folder) :
      (TagTree.ofTables lower made).ViewSelects tree idx (Folders.pathOf names) ↔
        (TagTree.ofTables lower made).Selects folder (Folders.pathOf names) := by
    constructor
    · rintro ⟨other, same, selects⟩
      cases found.symm.trans same
      exact selects
    · exact fun selects => ⟨folder, found, selects⟩
  have found := rises.dirpath_eq
  split at found
  · rename_i short
    rw [if_pos short, selects_folder found]
    exact TagTree.selects_iff placed (pathOf_ne_nil rises.some_name)
  · rename_i deep
    rw [if_neg deep, selects_folder found]
    exact TagTree.selects_iff placed (List.cons_ne_nil _ _)

/-- Where the addresses are plain, the path of a directory tells the tracks below it when it
matches no other file. -/
theorem fits_of_plain {t : TagTree} (placed : t.FilesPlaced) (plain : PlainFiles t.env t.rcldocs)
    (some_name : names ≠ [])
    (alone : ∀ doc ∈ t.rcldocs, isTrack doc →
      like (Folders.pathOf names ++ ['%']) (filePath t.env doc) = true →
        Folders.pathOf names <+: filePath t.env doc) :
    t.Fits (Folders.pathOf names) (Folders.pathOf names) := by
  refine ⟨fun doc member track => ?_, fun albid => ?_⟩
  · rw [(plain doc member track).1]
    exact ⟨alone doc member track, like_of_isPrefix⟩
  · refine exists_congr fun row => and_congr_right fun member => and_congr_left fun _ => ?_
    obtain ⟨doc, there, track, -⟩ := placed.path_of row member
    have inside := List.mem_of_getElem? there
    obtain ⟨-, folder, name, has_folder, no_slash, path⟩ := plain doc inside track
    obtain ⟨before, ends⟩ := exists_pathOf_eq some_name
    rw [TagTree.below_iff there]
    constructor
    · rintro ⟨doc', there', found, has_found, matched⟩
      cases there.symm.trans there'
      cases has_folder.symm.trans has_found
      refine alone doc inside track ?_
      rw [path]
      exact like_append matched name
    · intro below
      refine ⟨doc, there, folder, has_folder, ?_⟩
      have matched := like_of_isPrefix below
      rw [path, ends, List.append_assoc] at matched
      rw [ends, List.append_assoc]
      exact like_folder no_slash matched

/-- Two tracks in these folders of `/m`. -/
def twoFolders (first second : String) : List Doc :=
  [docAt "audio/flac" ("/m/" ++ first ++ "/1.flac"),
    docAt "audio/flac" ("/m/" ++ second ++ "/2.flac")]

/-- The fathers and the names of the first two directories. -/
def firstTwo (tree : Folders) : List (Option Int × Option Name) :=
  [(tree.father 1, tree.nameIn 0 1), (tree.father 2, tree.nameIn 1 2)]

theorem rises_second {docs : List Doc}
    (checked : (Folders.rcl2folders (bareEnv []) ["/m".toList] docs).map firstTwo =
      some [(some 0, some (.text "/m".toList)), (some 1, some (.text "a".toList))])
    (built : Folders.rcl2folders (bareEnv []) ["/m".toList] docs = some tree) :
    tree.Rises 2 ["/m".toList, "a".toList] := by
  rw [built, Option.map_some, Option.some.injEq, firstTwo] at checked
  simp only [List.cons.injEq, Prod.mk.injEq] at checked
  obtain ⟨⟨top, top_name⟩, ⟨father, name⟩, -⟩ := checked
  exact .up ⟨by decide, father, name⟩ (by decide) (.top ⟨by decide, top, top_name⟩)

theorem viewSelects_twoFolders :
    ∃ (tags : Tags) (db : Db) (made : recolltosql (bareEnv []) plainTags
        (tablesAfter plainTags [] alltagtotable) (twoFolders "a" "b") = some (tags, db))
      (tree : Folders),
      Folders.rcl2folders (bareEnv []) ["/m".toList] (twoFolders "a" "b") = some tree ∧
        (TagTree.ofTables id made).ViewSelects tree 2 "/m/a/".toList := by
  obtain ⟨⟨tags, db⟩, made⟩ : ∃ tables, recolltosql (bareEnv []) plainTags
      (tablesAfter plainTags [] alltagtotable) (twoFolders "a" "b") = some tables :=
    Option.isSome_iff_exists.mp (by decide)
  obtain ⟨tree, built⟩ : ∃ tree, Folders.rcl2folders (bareEnv []) ["/m".toList]
      (twoFolders "a" "b") = some tree := Option.isSome_iff_exists.mp (by decide)
  have rises : tree.Rises 2 ["/m".toList, "a".toList] := rises_second (by decide) built
  have plain : PlainFiles (bareEnv []) (twoFolders "a" "b") := by
    intro doc member _
    rcases List.mem_cons.mp member with rfl | member
    · exact ⟨by decide, "/m/a/".toList, "1.flac".toList, by decide, by decide, by decide⟩
    · rw [List.mem_singleton.mp member]
      exact ⟨by decide, "/m/b/".toList, "2.flac".toList, by decide, by decide, by decide⟩
  have path_first : (Folders.pathOf ["/m".toList, "a".toList]).isPrefixOf
      (filePath (bareEnv []) (docAt "audio/flac" "/m/a/1.flac")) = true := by decide
  have unmatched : like (Folders.pathOf ["/m".toList, "a".toList] ++ ['%'])
      (filePath (bareEnv []) (docAt "audio/flac" "/m/b/2.flac")) = false := by decide
  refine ⟨tags, db, made, tree, built, (viewSelects_iff id made rises).mpr ?_⟩
  rw [if_pos (by decide)]
  refine fits_of_plain (filesPlaced_ofTables id made) plain rises.some_name ?_
  intro doc member _ matched
  rcases List.mem_cons.mp member with rfl | member
  · exact List.isPrefixOf_iff_prefix.mp path_first
  · rw [List.mem_singleton.mp member] at matched
    exact absurd (unmatched.symm.trans matched) Bool.false_ne_true

/-- The path of a directory matches the files of another one, whose name has other letters. -/
theorem not_viewSelects_otherCase : ¬ ∀ (lower : Str → Str) (env : Env) (conf : TagConf)
    (earlier : List Str) (rcldocs : List Doc) (tags : Tags) (db : Db)
    (made : recolltosql env conf (tablesAfter conf earlier alltagtotable) rcldocs =
      some (tags, db)) (topdirs : List Str) (tree : Folders) (idx : Int) (names : List Str),
    Folders.rcl2folders env topdirs rcldocs = some tree → tree.Rises idx names →
      (TagTree.ofTables lower made).ViewSelects tree idx (Folders.pathOf names) := by
  intro claim
  obtain ⟨⟨tags, db⟩, made⟩ : ∃ tables, recolltosql (bareEnv []) plainTags
      (tablesAfter plainTags [] alltagtotable) (twoFolders "a" "A") = some tables :=
    Option.isSome_iff_exists.mp (by decide)
  obtain ⟨tree, built⟩ : ∃ tree, Folders.rcl2folders (bareEnv []) ["/m".toList]
      (twoFolders "a" "A") = some tree := Option.isSome_iff_exists.mp (by decide)
  have rises : tree.Rises 2 ["/m".toList, "a".toList] := rises_second (by decide) built
  obtain ⟨folder, found, selects⟩ := claim id _ _ _ _ tags db made _ tree 2 _ built rises
  rw [rises.dirpath_eq, Option.some.injEq] at found
  subst found
  have fits := (TagTree.selects_iff (filesPlaced_ofTables id made) (by decide)).mp selects
  have other : docAt "audio/flac" "/m/A/2.flac" ∈ twoFolders "a" "A" :=
    List.mem_cons_of_mem _ (List.mem_singleton.mpr rfl)
  have below := (fits.addresses _ other (by decide)).mp (by decide)
  have outside : (Folders.pathOf ["/m".toList, "a".toList]).isPrefixOf
      (filePath (bareEnv []) (docAt "audio/flac" "/m/A/2.flac")) = false := by decide
  exact absurd (outside.symm.trans (List.isPrefixOf_iff_prefix.mpr below)) Bool.false_ne_true

end Exact

end Upmpdcli.Uprcl
