import Upmpdcli.Cdplugins.Uprcl.FoldersTree
import Upmpdcli.Lib.Fold
import Upmpdcli.Lib.MapM

set_option autoImplicit false

/- Browsing the tree of the folders: which entries of a directory are listed. -/
namespace Upmpdcli.Uprcl.Folders

/-- The options of a browse request, `lower` of a text, and the tree of the tags. -/
structure BrowseOpts where
  notagview : Bool := false
  enabletags : Bool := true
  lower : Str → Str := id
  browseFolder : Str → Str → Option (List Entry) := fun _ _ => none

def idprefix : Str := "0$uprcl$folders".toList

/-- The object id of a directory. -/
def dirId (diridx : Int) : Str := idprefix ++ "$d".toList ++ Text.strInt diridx

/-- The object id of a document. -/
def itemId (docidx : Int) : Str := idprefix ++ "$i".toList ++ Text.strInt docidx

/-- `_objidtoidx`: whether it is a document, the index, and the rest of the id. -/
def objidtoidx (t : Folders) (pid : Str) : Option (Bool × Int × Str) :=
  if ¬ idprefix.isPrefixOf pid ∨ t.rcldocs = [] then none
  else
    match pid.drop idprefix.length with
    | [] => if t.dirvec = [] then none else some (false, 0, [])
    | '$' :: kind :: rest => do
        let isitem ←
          if kind = 'd' then some false else if kind = 'i' then some true else none
        let idx ← Text.int (rest.takeWhile (· ≠ '$'))
        let size : Int := if isitem then t.rcldocs.length else t.dirvec.length
        if idx ≥ size then none else some (isitem, idx, rest.dropWhile (· ≠ '$'))
    | _ => none

/-- The element of a list at an index. -/
def pyGet {α : Type*} (items : List α) (idx : Int) : Option α :=
  (pyIndex items.length idx).bind fun i => items[i]?

/-- `_docforidx`. -/
def docforidx (t : Folders) (docidx : Int) : Option Doc :=
  if docidx < t.rcldocs.length then pyGet t.rcldocs docidx
  else pyGet t.moredocs (docidx - t.rcldocs.length)

/-- The loop of `_arturifordir`. The outer `none` is an error. -/
def firstArt (env : Env) (t : Folders) : Dir → Option (Option Str)
  | [] => some none
  | (_, ids) :: rest =>
      if 0 ≤ ids.2 ∧ ids.2 < t.rcldocs.length then do
        let doc ← t.rcldocs[ids.2.toNat]?
        match ← docarturi env doc true with
        | some arturi => some (some arturi)
        | none => firstArt env t rest
      else firstArt env t rest

/-- `_arturifordir`. -/
def arturifordir (env : Env) (t : Folders) (diridx : Int) : Option (Option Str) :=
  (t.dirAt diridx).bind (firstArt env t)

/-- The names which every directory has for itself and for its father. -/
def Special (nm : Name) : Prop := nm = dotdot ∨ nm = dot

instance (nm : Name) : Decidable (Special nm) := inferInstanceAs (Decidable (_ ∨ _))

/-- A turn of the loop of `browse`: what it appends. -/
def browseEntry (env : Env) (t : Folders) (pid : Str) (entry : Name × Ids) : Option (List Entry) :=
  let (nm, thisdiridx, thisdocidx) := entry
  if Special nm then some []
  else if 0 ≤ thisdiridx then do
    let dir ← t.dirAt thisdiridx
    -- skip empty directories
    if dir.length = 1 then some []
    else
      let arturi ← t.arturifordir env thisdiridx
      let nm ← Name.asText nm
      return [direntry (dirId thisdiridx) pid (PosixPath.basename nm) arturi]
  else if thisdocidx = -1 then some []
  else do
    let doc ← t.docforidx thisdocidx
    let e ← rcldoctoentry env (itemId thisdocidx) pid doc
    return if e = [] then [] else [e]

/-- No turn of the loop lists a directory. -/
def showtopart (t : Folders) (dir : Dir) : Bool :=
  dir.all fun entry =>
    Special entry.1 || entry.2.1 < 0 || (t.dirAt entry.2.1).any fun sub => sub.length = 1

/-- Texts are compared by their characters. -/
def compareText : Str → Str → Ordering
  | [], [] => .eq
  | [], _ :: _ => .lt
  | _ :: _, [] => .gt
  | a :: as, b :: bs => (compare a.toNat b.toNat).then (compareText as bs)

/-- `cmpentries`: containers by their titles, behind them tracks by album, directory, number and
file name. -/
def cmpentries (opts : BrowseOpts) (e1 e2 : Entry) : Ordering :=
  let field (e : Entry) (key : String) : Str := (e.lookup key).getD []
  let isct (e : Entry) : Bool := field e "tp" = "ct".toList
  let number (e : Entry) : Int :=
    ((e.lookup "upnp:originalTrackNumber").bind Text.int).getD 0
  if isct e1 then
    if isct e2 then compareText (opts.lower (field e1 "tt")) (opts.lower (field e2 "tt")) else .lt
  else if isct e2 then .gt
  else
    (compareText (field e1 "upnp:album") (field e2 "upnp:album")).then <|
      (compareText (PosixPath.dirname (field e1 "uri")) (PosixPath.dirname (field e2 "uri"))).then <|
        (compare (number e1) (number e2)).then <|
          compareText (PosixPath.basename (field e1 "uri")) (PosixPath.basename (field e2 "uri"))

/-- The index of the directory which a request shows. A root with one entry is skipped. -/
def shown (t : Folders) (idx : Int) : Int :=
  if idx = 0 ∧ (t.dirvec.headD []).length = 2 then 1 else idx

def hasTagView (opts : BrowseOpts) (pid : Str) : Prop :=
  opts.notagview = false ∧ pid ≠ idprefix ∧ opts.enabletags = true

instance (opts : BrowseOpts) (pid : Str) : Decidable (hasTagView opts pid) :=
  inferInstanceAs (Decidable (_ ∧ _ ∧ _))

/-- The rest of `browse`, with the directory. -/
def browseDir (env : Env) (opts : BrowseOpts) (t : Folders) (pid : Str) (idx : Int) :
    Option (List Entry) := do
  let dir ← t.dirAt idx
  let found ← dir.mapM (browseEntry env t pid)
  let entries := found.flatten
  let entries :=
    if idx ∈ t.playlists.map Int.ofNat then entries
    else entries.mergeSort fun e1 e2 => cmpentries opts e1 e2 ≠ .gt
  if hasTagView opts pid then
    let arturi ← if showtopart t dir then t.arturifordir env idx else some none
    return direntry (pid ++ "$tagview.0".toList) pid ">> Tag View".toList arturi :: entries
  else return entries

/-- `browse`, of the children. -/
def browse (env : Env) (opts : BrowseOpts) (t : Folders) (pid : Str) : Option (List Entry) := do
  let (isitem, idx, pthremain) ← t.objidtoidx pid
  if pthremain ≠ [] then
    if "$tagview.0".toList.isPrefixOf pthremain then opts.browseFolder pid pthremain else none
  else browseDir env opts t pid (if isitem then idx else t.shown idx)

/-- An entry of a directory is a directory of the table or has no index, and its document has
an audio type. Only a document has bytes for its name. -/
structure EntrySound (t : Folders) (entry : Name × Ids) : Prop where
  inside : entry.2.1 < t.dirvec.length
  docidx : 0 ≤ entry.2.2 ∨ entry.2.2 = -1
  audio : 0 ≤ entry.2.2 → ∃ doc, t.docforidx entry.2.2 = some doc ∧ doc.get "mtype" ∈ audiomtypes
  text : 0 ≤ entry.2.1 → (Name.asText entry.1).isSome = true

/-- The keys of a directory are distinct, and its entries are sound. -/
structure DirSound (t : Folders) (dir : Dir) : Prop where
  distinct : (dir.map Prod.fst).Nodup
  entries : ∀ entry ∈ dir, EntrySound t entry

/-- What the construction of the tree keeps. The second part is what the test for empty
directories counts on. -/
structure Sound (t : Folders) : Prop where
  dirs : ∀ dir ∈ t.dirvec, DirSound t dir
  father : ∀ dir ∈ t.dirvec, dotdot ∈ dir.map Prod.fst

/-- A table with more directories and documents. -/
structure Extends (t t' : Folders) : Prop where
  dirs : t.dirvec.length ≤ t'.dirvec.length
  rcldocs : t'.rcldocs = t.rcldocs
  moredocs : t.moredocs <+: t'.moredocs

section Table

variable {t t' : Folders} {idx : Int} {nm : Name} {ids : Ids} {dir : Dir} {doc : Doc}

theorem pyIndex_lt {length i : Nat} (found : pyIndex length idx = some i) : i < length := by
  unfold pyIndex at found
  split at found
  · split at found
    · cases found
      omega
    · cases found
  · split at found
    · cases found
      omega
    · cases found

theorem pyGet_append {α : Type*} {items : List α} {item : α} (nonneg : 0 ≤ idx)
    (there : pyGet items idx = some item) (more : List α) :
    pyGet (items ++ more) idx = some item := by
  obtain ⟨i, at_i, found⟩ := Option.bind_eq_some_iff.mp there
  have inside := pyIndex_lt at_i
  rw [pyGet, Option.bind_eq_some_iff]
  refine ⟨i, ?_, by rw [List.getElem?_append_left inside, found]⟩
  unfold pyIndex at at_i ⊢
  rw [if_pos nonneg] at at_i ⊢
  rw [List.length_append]
  split at at_i
  · rw [if_pos (by omega)]
    exact at_i
  · cases at_i

theorem Extends.docforidx (ext : t.Extends t') (there : t.docforidx idx = some doc) :
    t'.docforidx idx = some doc := by
  unfold Folders.docforidx at there ⊢
  obtain ⟨more, moredocs⟩ := ext.moredocs
  rw [ext.rcldocs, ← moredocs]
  split at there
  · rename_i inside
    rw [if_pos inside]
    exact there
  · rename_i outside
    rw [if_neg outside]
    exact pyGet_append (by omega) there more

theorem EntrySound.extend {entry : Name × Ids} (sound : EntrySound t entry)
    (ext : t.Extends t') : EntrySound t' entry where
  inside := by have := sound.inside; have := ext.dirs; omega
  docidx := sound.docidx
  audio nonneg := by
    obtain ⟨doc, there, audio⟩ := sound.audio nonneg
    exact ⟨doc, ext.docforidx there, audio⟩
  text := sound.text

theorem DirSound.extend (sound : DirSound t dir) (ext : t.Extends t') : DirSound t' dir :=
  ⟨sound.distinct, fun entry member => (sound.entries entry member).extend ext⟩

theorem DirSound.set (sound : DirSound t dir) (fits : EntrySound t (nm, ids)) :
    DirSound t (Dict.set dir nm ids) where
  distinct := Dict.nodup_set sound.distinct nm ids
  entries entry member := by
    rcases Dict.mem_set member with rfl | there
    · exact fits
    · exact sound.entries entry there

/-- What an assignment into a directory does. -/
theorem setEntry_spec (set : t.setEntry idx nm ids = some t') :
    ∃ i, i < t.dirvec.length ∧ pyIndex t.dirvec.length idx = some i ∧
      t' = { t with dirvec := t.dirvec.modify i fun dir => Dict.set dir nm ids } := by
  obtain ⟨i, at_i, rfl⟩ := Option.map_eq_some_iff.mp set
  exact ⟨i, pyIndex_lt at_i, at_i, rfl⟩

theorem extends_setEntry (set : t.setEntry idx nm ids = some t') : t.Extends t' := by
  obtain ⟨i, -, -, rfl⟩ := setEntry_spec set
  exact ⟨(List.length_modify _ _ _).ge, rfl, List.prefix_refl _⟩

theorem Extends.trans {t'' : Folders} (first : t.Extends t') (second : t'.Extends t'') :
    t.Extends t'' :=
  ⟨first.dirs.trans second.dirs, second.rcldocs.trans first.rcldocs,
    first.moredocs.trans second.moredocs⟩

theorem Extends.refl (t : Folders) : t.Extends t := ⟨le_rfl, rfl, List.prefix_refl _⟩

theorem forall_mem_modify {α : Type*} {p : α → Prop} {items : List α} {f : α → α} {i : Nat}
    (all : ∀ item ∈ items, p item) (changed : ∀ item ∈ items, p item → p (f item)) :
    ∀ item ∈ items.modify i f, p item := by
  intro item member
  obtain ⟨k, at_k⟩ := List.getElem?_of_mem member
  rw [List.getElem?_modify, Option.map_eq_map, Option.map_eq_some_iff] at at_k
  obtain ⟨old, there, rfl⟩ := at_k
  have old_mem := List.mem_of_getElem? there
  split
  · exact changed old old_mem (all old old_mem)
  · exact all old old_mem

/-- The directories stay sound when a sound entry is assigned. -/
theorem dirs_setEntry (dirs : ∀ dir ∈ t.dirvec, DirSound t dir) (fits : EntrySound t (nm, ids))
    (set : t.setEntry idx nm ids = some t') : ∀ dir ∈ t'.dirvec, DirSound t' dir := by
  have ext := extends_setEntry set
  obtain ⟨i, -, -, rfl⟩ := setEntry_spec set
  refine forall_mem_modify (fun dir member => (dirs dir member).extend ext) ?_
  exact fun dir _ sound => sound.set (fits.extend ext)

theorem mem_keys_set {key : Name} (member : key ∈ dir.map Prod.fst) :
    key ∈ (Dict.set dir nm ids).map Prod.fst := by
  rw [Dict.keys_set]
  split
  · exact member
  · exact List.mem_append_left _ member

theorem Sound.setEntry (sound : t.Sound) (fits : EntrySound t (nm, ids))
    (set : t.setEntry idx nm ids = some t') : t'.Sound := by
  refine ⟨dirs_setEntry sound.dirs fits set, ?_⟩
  obtain ⟨i, -, -, rfl⟩ := setEntry_spec set
  exact forall_mem_modify sound.father fun dir _ there => mem_keys_set there

/-- Nothing is said of the playlists, and new documents do no harm. -/
theorem Sound.same (sound : t.Sound) (ext : t.Extends t') (dirvec : t'.dirvec = t.dirvec) :
    t'.Sound := by
  refine ⟨?_, ?_⟩
  · rw [dirvec]
    exact fun dir member => (sound.dirs dir member).extend ext
  · rw [dirvec]
    exact sound.father

/-- A document of the recoll index, as an index of an entry. -/
def DocAt (t : Folders) (docidx : Int) : Prop :=
  docidx = -1 ∨ 0 ≤ docidx ∧ ∃ doc, t.docforidx docidx = some doc ∧ doc.get "mtype" ∈ audiomtypes

theorem DocAt.extend {docidx : Int} (doc_at : t.DocAt docidx) (ext : t.Extends t') :
    t'.DocAt docidx := by
  rcases doc_at with none | ⟨nonneg, doc, there, audio⟩
  · exact .inl none
  · exact .inr ⟨nonneg, doc, ext.docforidx there, audio⟩

theorem DocAt.entry {docidx : Int} (doc_at : t.DocAt docidx) {diridx : Int}
    (inside : diridx < t.dirvec.length) (text : 0 ≤ diridx → (Name.asText nm).isSome = true) :
    EntrySound t (nm, diridx, docidx) where
  inside := inside
  docidx := by
    rcases doc_at with none | ⟨nonneg, -⟩
    · exact .inr none
    · exact .inl nonneg
  audio nonneg := by
    rcases doc_at with none | ⟨-, there⟩
    · exact absurd none (by dsimp only at nonneg; omega)
    · exact there
  text := text

/-- The last directory is the one which may have no father yet. -/
def AllButLast (t : Folders) : Prop :=
  ∃ front last, t.dirvec = front ++ [last] ∧ ∀ dir ∈ front, dotdot ∈ dir.map Prod.fst

theorem AllButLast.setEntry (but_last : t.AllButLast) (set : t.setEntry idx nm ids = some t') :
    t'.AllButLast := by
  obtain ⟨front, last, dirvec, fathers⟩ := but_last
  obtain ⟨i, inside, -, rfl⟩ := setEntry_spec set
  rw [dirvec, List.length_append, List.length_singleton] at inside
  by_cases in_front : i < front.length
  · refine ⟨front.modify i fun dir => Dict.set dir nm ids, last, ?_, ?_⟩
    · rw [dirvec]
      exact modify_append_left in_front [last]
    · exact forall_mem_modify fathers fun dir _ there => mem_keys_set there
  · refine ⟨front, Dict.set last nm ids, ?_, fathers⟩
    rw [dirvec, show i = front.length by omega]
    exact modify_append_last

theorem AllButLast.setFather (but_last : t.AllButLast) {fathidx : Int}
    (set : t.setEntry (-1) dotdot (fathidx, -1) = some t') :
    ∀ dir ∈ t'.dirvec, dotdot ∈ dir.map Prod.fst := by
  obtain ⟨front, last, dirvec, fathers⟩ := but_last
  rw [setEntry_last dirvec] at set
  cases set
  intro dir member
  rcases List.mem_append.mp member with in_front | is_last
  · exact fathers dir in_front
  · rw [List.mem_singleton.mp is_last, Dict.keys_set]
    split
    · assumption
    · exact List.mem_append_right _ List.mem_cons_self

theorem docAt_none (t : Folders) : t.DocAt (-1) := .inl rfl

theorem Sound.createdir (sound : t.Sound) {fathidx docidx thisidx : Int} {elt : Str}
    (father : fathidx < t.dirvec.length) (doc_at : t.DocAt docidx)
    (created : t.createdir fathidx docidx (.text elt) = some (t', thisidx)) :
    t'.Sound ∧ t.Extends t' ∧ thisidx < t'.dirvec.length := by
  unfold Folders.createdir at created
  simp only [bind, Option.bind_eq_some_iff, pure, Option.some.injEq, Prod.mk.injEq] at created
  obtain ⟨t₂, in_father, t₃, up, t₄, self, rfl, rfl⟩ := created
  have fresh : t.Extends { t with dirvec := t.dirvec ++ [[]] } :=
    ⟨by rw [List.length_append]; omega, rfl, List.prefix_refl _⟩
  have ext₂ := extends_setEntry in_father
  have ext₃ := extends_setEntry up
  have ext₄ := extends_setEntry self
  have length : (t.dirvec ++ [([] : Dir)]).length = t.dirvec.length + 1 := by
    rw [List.length_append, List.length_singleton]
  have inside : ((t.dirvec ++ [([] : Dir)]).length : Int) - 1 < (t.dirvec ++ [([] : Dir)]).length := by
    omega
  have empty : DirSound { t with dirvec := t.dirvec ++ [[]] } [] :=
    ⟨List.nodup_nil, fun _ member => absurd member List.not_mem_nil⟩
  have dirs₁ : ∀ dir ∈ t.dirvec ++ [[]], DirSound { t with dirvec := t.dirvec ++ [[]] } dir := by
    intro dir member
    rcases List.mem_append.mp member with old | new
    · exact (sound.dirs dir old).extend fresh
    · rw [List.mem_singleton.mp new]
      exact empty
  have dirs₂ := dirs_setEntry dirs₁ ((doc_at.extend fresh).entry inside fun _ => rfl) in_father
  have dirs₃ := dirs_setEntry dirs₂
    ((docAt_none t₂).entry (by have := fresh.dirs; have := ext₂.dirs; omega) fun _ => rfl) up
  have but_last : AllButLast { t with dirvec := t.dirvec ++ [[]] } := ⟨t.dirvec, [], rfl, sound.father⟩
  have fathers := (but_last.setEntry in_father).setFather up
  refine ⟨(Sound.mk dirs₃ fathers).setEntry ?_ self, ((fresh.trans ext₂).trans ext₃).trans ext₄, ?_⟩
  · exact (doc_at.extend ((fresh.trans ext₂).trans ext₃)).entry
      (Int.lt_of_lt_of_le inside (Int.ofNat_le.mpr (ext₂.trans ext₃).dirs)) fun _ => rfl
  · exact Int.lt_of_lt_of_le inside (Int.ofNat_le.mpr ((ext₂.trans ext₃).trans ext₄).dirs)

/-- A turn of the walk keeps the tree sound, and comes to a directory of it. -/
theorem Sound.placeStep (sound : t.Sound) {docidx : Nat} {mtype elt : Str} {last : Bool}
    {fathidx next : Int} (father : fathidx < t.dirvec.length) (doc_at : t.DocAt docidx)
    (placed : placeStep docidx mtype elt last fathidx t = some (t', next)) :
    t'.Sound ∧ t.Extends t' ∧ next < t'.dirvec.length := by
  unfold Folders.placeStep at placed
  obtain ⟨dir, dir_at, placed⟩ := Option.bind_eq_some_iff.mp placed
  obtain ⟨i, -, there⟩ := Option.bind_eq_some_iff.mp dir_at
  have dir_sound := sound.dirs dir (List.mem_of_getElem? there)
  cases found : dir.lookup (.text elt) with
  | some ids =>
      rw [found] at placed
      have entry := dir_sound.entries _ (Dict.mem_of_lookup found)
      cases last with
      | true =>
          obtain ⟨t₁, set, same⟩ := Option.bind_eq_some_iff.mp placed
          cases same
          have ext := extends_setEntry set
          exact ⟨sound.setEntry (doc_at.entry entry.inside fun _ => rfl) set, ext,
            Int.lt_of_lt_of_le entry.inside (Int.ofNat_le.mpr ext.dirs)⟩
      | false =>
          cases placed
          exact ⟨sound, .refl t, entry.inside⟩
  | none =>
      rw [found] at placed
      dsimp only at placed
      split at placed
      · exact sound.createdir father (docAt_none t) placed
      · split at placed
        · exact sound.createdir father doc_at placed
        · split at placed
          · obtain ⟨⟨t₁, myidx⟩, created, placed⟩ := Option.bind_eq_some_iff.mp placed
            obtain ⟨t₂, set, same⟩ := Option.bind_eq_some_iff.mp placed
            cases same
            obtain ⟨sound₁, ext₁, inside⟩ := sound.createdir father doc_at created
            have ext := extends_setEntry set
            have sound₂ := sound₁.setEntry ((doc_at.extend ext₁).entry inside fun _ => rfl) set
            refine ⟨sound₂.same ?_ rfl, (ext₁.trans ext).trans ?_,
              Int.lt_of_lt_of_le inside (Int.ofNat_le.mpr ext.dirs)⟩
            · exact ⟨le_rfl, rfl, List.prefix_refl _⟩
            · exact ⟨le_rfl, rfl, List.prefix_refl _⟩
          · obtain ⟨t₁, set, same⟩ := Option.map_eq_some_iff.mp placed
            cases same
            have ext := extends_setEntry set
            exact ⟨sound.setEntry (doc_at.entry (by omega) fun _ => rfl) set, ext,
              Int.lt_of_lt_of_le father (Int.ofNat_le.mpr ext.dirs)⟩

theorem Sound.place (sound : t.Sound) {docidx : Nat} {mtype : Str} {elements : List Str}
    {fathidx : Int} (father : fathidx < t.dirvec.length) (doc_at : t.DocAt docidx)
    (placed : place docidx mtype elements fathidx t = some t') : t'.Sound ∧ t.Extends t' := by
  induction elements generalizing t fathidx with
  | nil =>
      cases placed
      exact ⟨sound, .refl _⟩
  | cons elt rest ih =>
      obtain ⟨⟨t₁, next⟩, step, placed⟩ := Option.bind_eq_some_iff.mp placed
      obtain ⟨sound₁, ext₁, inside⟩ := sound.placeStep father doc_at step
      obtain ⟨sound₂, ext₂⟩ := ih sound₁ inside (doc_at.extend ext₁) placed
      exact ⟨sound₂, ext₁.trans ext₂⟩

/-- The directory which a path is placed from is a top directory. -/
theorem Sound.beyond (sound : t.Sound) {env : Env} {beyond : Int × List Str}
    (found : pathbeyondtopdirs env t doc = some beyond) : beyond.1 < t.dirvec.length := by
  unfold pathbeyondtopdirs at found
  dsimp only at found
  cases entry : rootEntry (t.dirvec.headD []) (Utf8.decodeReplace (docpath env doc)) with
  | none =>
      rw [entry] at found
      cases found
  | some top =>
      rw [entry] at found
      dsimp only at found
      split at found
      · cases found
      · cases found
        obtain ⟨⟨nm, ids⟩, member, chosen⟩ := List.exists_of_findSome?_eq_some entry
        have of_root : (t.dirvec.headD []) ∈ t.dirvec := by
          cases dirvec : t.dirvec with
          | nil =>
              rw [dirvec] at member
              cases member
          | cons root rest => exact List.mem_cons_self
        have fits := (sound.dirs _ of_root).entries _ member
        cases nm with
        | text rtpath =>
            dsimp only at chosen
            split at chosen
            · cases chosen
              exact fits.inside
            · cases chosen
        | bytes nm => cases chosen

theorem Sound.addDoc (sound : t.Sound) {env : Env} {docidx : Nat}
    (there : t.rcldocs[docidx]? = some doc) (added : addDoc env t doc docidx = some t') :
    t'.Sound ∧ t.Extends t' := by
  unfold Folders.addDoc at added
  split at added
  · cases added
    exact ⟨sound, .refl t⟩
  · rename_i audio
    split at added
    · cases added
      exact ⟨sound, .refl t⟩
    · rename_i fathidx path beyond
      split at added
      · cases added
        exact ⟨sound, .refl t⟩
      · refine sound.place (sound.beyond beyond) (.inr ⟨Int.natCast_nonneg _, doc, ?_, ?_⟩) added
        · have inside := (List.getElem?_eq_some_iff.mp there).1
          rw [docforidx, if_pos (by omega), pyGet, pyIndex_natCast inside, Option.bind_some, there]
        · exact not_not.mp audio

theorem Sound.addDocs (sound : t.Sound) {env : Env} {docs : List Doc} {docidx : Nat}
    (there : ∀ i (inside : i < docs.length), t.rcldocs[docidx + i]? = some docs[i])
    (added : addDocs env docs docidx t = some t') : t'.Sound ∧ t.Extends t' := by
  induction docs generalizing t docidx with
  | nil =>
      cases added
      exact ⟨sound, .refl _⟩
  | cons doc rest ih =>
      obtain ⟨t₁, first, added⟩ := Option.bind_eq_some_iff.mp added
      obtain ⟨sound₁, ext₁⟩ := sound.addDoc (there 0 (Nat.succ_pos _)) first
      obtain ⟨sound₂, ext₂⟩ := ih sound₁ (fun i inside => by
        rw [ext₁.rcldocs, Nat.add_assoc, Nat.add_comm 1 i]
        exact there (i + 1) (Nat.succ_lt_succ inside)) added
      exact ⟨sound₂, ext₁.trans ext₂⟩

/-- The loop over the top directories. -/
theorem root_sound (tops : List Str) (start : Nat) (dir : Dir)
    (distinct : (dir.map Prod.fst).Nodup) (father : dotdot ∈ dir.map Prod.fst)
    (entries : ∀ entry ∈ dir, entry.2.2 = -1 ∧ entry.2.1 < ((start : Nat) : Int) ∧
      (Name.asText entry.1).isSome = true) :
    let root := (tops.foldl
      (fun (tops : Dir × Nat) d =>
        (Dict.set tops.1 (.text d) ((tops.2 : Int), -1), tops.2 + 1)) (dir, start)).1
    (root.map Prod.fst).Nodup ∧ dotdot ∈ root.map Prod.fst ∧
      ∀ entry ∈ root, entry.2.2 = -1 ∧ entry.2.1 < ((start + tops.length : Nat) : Int) ∧
        (Name.asText entry.1).isSome = true := by
  induction tops generalizing start dir with
  | nil => exact ⟨distinct, father, entries⟩
  | cons d rest ih =>
      rw [List.foldl_cons, List.length_cons, Nat.add_comm rest.length 1, ← Nat.add_assoc]
      refine ih (start + 1) _ (Dict.nodup_set distinct _ _) (mem_keys_set father) ?_
      intro entry member
      rcases Dict.mem_set member with rfl | old
      · exact ⟨rfl, by dsimp only; omega, rfl⟩
      · obtain ⟨no_doc, inside, text⟩ := entries entry old
        exact ⟨no_doc, by omega, text⟩

theorem sound_topTree (rcldocs : List Doc) (topdirs : List Str) : (topTree rcldocs topdirs).Sound := by
  have length : (topTree rcldocs topdirs).dirvec.length = topdirs.length + 1 := by
    simp [topTree]
  have father : [(dotdot, ((0 : Int), (-1 : Int)))].map Prod.fst = [dotdot] := rfl
  obtain ⟨distinct, up, entries⟩ := root_sound (topdirs.map rstripSlash) 1
    [(dotdot, (0, -1))] (List.nodup_singleton _) List.mem_cons_self (by
      intro entry member
      rw [List.mem_singleton.mp member]
      exact ⟨rfl, by decide, rfl⟩)
  refine ⟨fun dir member => ?_, fun dir member => ?_⟩
  · rcases List.mem_cons.mp member with rfl | top
    · refine ⟨distinct, fun entry inside => ?_⟩
      obtain ⟨no_doc, index, text⟩ := entries entry inside
      rw [List.length_map] at index
      exact ⟨by rw [length]; omega, .inr no_doc, fun doc => absurd doc (by omega), fun _ => text⟩
    · obtain ⟨_, -, rfl⟩ := List.mem_map.mp top
      refine ⟨List.nodup_singleton _, fun entry inside => ?_⟩
      rw [List.mem_singleton.mp inside]
      exact (docAt_none _).entry (by rw [length]; omega) fun _ => rfl
  · rcases List.mem_cons.mp member with rfl | top
    · exact up
    · obtain ⟨_, -, rfl⟩ := List.mem_map.mp top
      exact List.mem_cons_self

/-- What `_stat` finds is an entry of a directory, or nothing. -/
theorem Sound.statFrom (sound : t.Sound) {elements : List Str} {ids : Ids} (start : t.DocAt ids.2)
    {found : Ids} (walked : statFrom t elements ids = some found) : t.DocAt found.2 := by
  induction elements generalizing ids with
  | nil =>
      cases walked
      exact start
  | cons elt rest ih =>
      obtain ⟨dir, dir_at, walked⟩ := Option.bind_eq_some_iff.mp walked
      obtain ⟨i, -, there⟩ := Option.bind_eq_some_iff.mp dir_at
      cases entry : dir.lookup (.text elt) with
      | none =>
          rw [entry] at walked
          cases walked
          exact docAt_none t
      | some next =>
          rw [entry] at walked
          have fits := (sound.dirs dir (List.mem_of_getElem? there)).entries _
            (Dict.mem_of_lookup entry)
          refine ih ?_ walked
          rcases fits.docidx with nonneg | none
          · exact .inr ⟨nonneg, fits.audio nonneg⟩
          · exact .inl none

theorem Sound.stat (sound : t.Sound) {env : Env} {found : Ids}
    (walked : stat env t doc = some found) : t.DocAt found.2 := by
  unfold Folders.stat at walked
  split at walked
  · cases walked
    exact docAt_none t
  · split at walked
    · cases walked
      exact docAt_none t
    · exact sound.statFrom (docAt_none t) walked

theorem mtype_docforurl (url : Bytes) : (docforurl url).get "mtype" = "audio/mpeg".toList := by
  rw [docforurl, Doc.get, Doc.set, Dict.lookup_set_self]
  rfl

theorem Sound.addLine (sound : t.Sound) {env : Env} {plpath url : Bytes} {diridx : Nat}
    (added : addLine env plpath diridx t url = some t') : t'.Sound := by
  unfold Folders.addLine at added
  split at added
  · have sound₁ : Sound { t with moredocs := t.moredocs ++ [docforurl url] } :=
      sound.same ⟨le_rfl, rfl, List.prefix_append _ _⟩ rfl
    have length : (t.moredocs ++ [docforurl url]).length = t.moredocs.length + 1 := by
      rw [List.length_append, List.length_singleton]
    have there : docforidx { t with moredocs := t.moredocs ++ [docforurl url] }
        (t.rcldocs.length + (t.moredocs ++ [docforurl url]).length - 1) = some (docforurl url) := by
      rw [docforidx, if_neg (by dsimp only; omega)]
      have index : ((t.rcldocs.length : Int) + (t.moredocs ++ [docforurl url]).length - 1) -
          t.rcldocs.length = (t.moredocs.length : Nat) := by omega
      rw [index, pyGet, pyIndex_natCast (by dsimp only; omega), Option.bind_some,
        List.getElem?_append_right le_rfl, Nat.sub_self]
      rfl
    have audio : (docforurl url).get "mtype" ∈ audiomtypes := by
      rw [mtype_docforurl]
      decide
    refine sound₁.setEntry (DocAt.entry (.inr ⟨by omega, _, there, audio⟩) ?_ fun _ => rfl) added
    dsimp only
    omega
  · obtain ⟨docidx, found, added⟩ := Option.bind_eq_some_iff.mp added
    obtain ⟨ids, walked, rfl⟩ := Option.map_eq_some_iff.mp found
    split at added
    · rename_i docidx same
      split at same
      · rename_i inside
        have doc_at := sound.stat walked
        rw [Option.some.injEq] at same
        rw [show ids.2 = ((docidx + 1 : Nat) : Int) by omega] at doc_at
        refine sound.setEntry (DocAt.entry doc_at (by omega) ?_) added
        exact fun nonneg => absurd nonneg (by decide)
      · cases same
    · cases added
      exact sound

theorem Sound.initplaylist (sound : t.Sound) {env : Env} {diridx : Nat}
    (ran : initplaylist env t diridx = some t') : t'.Sound := by
  unfold Folders.initplaylist at ran
  obtain ⟨dir, -, ran⟩ := Option.bind_eq_some_iff.mp ran
  obtain ⟨ids, -, ran⟩ := Option.bind_eq_some_iff.mp ran
  obtain ⟨i, -, ran⟩ := Option.bind_eq_some_iff.mp ran
  obtain ⟨pldoc, -, ran⟩ := Option.bind_eq_some_iff.mp ran
  dsimp only at ran
  split at ran
  · cases ran
    exact sound
  · exact Fold.foldlM_keeps (fun _ _ _ sound added => sound.addLine added) sound ran

/-- The tree which is built is sound. -/
theorem sound_rcl2folders {env : Env} {topdirs : List Str} {rcldocs : List Doc}
    (built : rcl2folders env topdirs rcldocs = some t) : t.Sound := by
  obtain ⟨t₁, placed, filled⟩ := Option.bind_eq_some_iff.mp built
  obtain ⟨sound, -⟩ := (sound_topTree rcldocs topdirs).addDocs
    (fun i inside => by
      rw [Nat.zero_add]
      exact List.getElem?_eq_getElem inside) placed
  exact Fold.foldlM_keeps (fun _ _ _ sound ran => sound.initplaylist ran) sound filled

end Table

section Listed

variable {env : Env} {opts : BrowseOpts} {t : Folders} {pid id : Str} {entry : Name × Ids} {dir : Dir}
  {entries es : List Entry}

/-- A directory has an entry besides those for itself and for its father. -/
def Filled (t : Folders) (diridx : Int) : Prop :=
  ∃ dir, t.dirAt diridx = some dir ∧ ∃ entry ∈ dir, ¬ Special entry.1

/-- An answer has an entry with this id. -/
def Lists (entries : List Entry) (id : Str) : Prop := ∃ e ∈ entries, e.lookup "id" = some id

/-- The directories which are listed are those with an entry, and every other entry which has a
document is listed. -/
structure ListsRight (t : Folders) (dir : Dir) (entries : List Entry) : Prop where
  dirs : ∀ entry ∈ dir, ¬ Special entry.1 → 0 ≤ entry.2.1 →
    (Lists entries (dirId entry.2.1) ↔ t.Filled entry.2.1)
  docs : ∀ entry ∈ dir, ¬ Special entry.1 → entry.2.1 < 0 → entry.2.2 ≠ -1 →
    Lists entries (itemId entry.2.2)

theorem strInt_injective {n k : Int} (n_nonneg : 0 ≤ n) (k_nonneg : 0 ≤ k)
    (same : Text.strInt n = Text.strInt k) : n = k := by
  obtain ⟨n, rfl⟩ := Int.eq_ofNat_of_zero_le n_nonneg
  obtain ⟨k, rfl⟩ := Int.eq_ofNat_of_zero_le k_nonneg
  rw [Text.strInt_natCast, Text.strInt_natCast] at same
  rw [Text.str_injective same]

theorem dirId_injective {n k : Int} (n_nonneg : 0 ≤ n) (k_nonneg : 0 ≤ k)
    (same : dirId n = dirId k) : n = k :=
  strInt_injective n_nonneg k_nonneg (List.append_cancel_left same)

theorem dirId_ne_itemId (n k : Int) : dirId n ≠ itemId k := by
  intro same
  have kinds : '$' :: 'd' :: Text.strInt n = '$' :: 'i' :: Text.strInt k := by
    unfold dirId itemId at same
    rw [List.append_assoc, List.append_assoc] at same
    exact List.append_cancel_left same
  simp at kinds

/-- The numbers in the ids have no dot, which the id of the tag view has. -/
theorem dot_not_mem_strInt {n : Int} (nonneg : 0 ≤ n) : '.' ∉ Text.strInt n := by
  obtain ⟨n, rfl⟩ := Int.eq_ofNat_of_zero_le nonneg
  rw [Text.strInt_natCast]
  intro member
  exact absurd (Text.isDigit_of_mem_str member) (by decide)

theorem dot_not_mem_dirId {n : Int} (nonneg : 0 ≤ n) : '.' ∉ dirId n := by
  rw [dirId, List.mem_append, not_or]
  exact ⟨by decide, dot_not_mem_strInt nonneg⟩

theorem dot_not_mem_itemId {n : Int} (nonneg : 0 ≤ n) : '.' ∉ itemId n := by
  rw [itemId, List.mem_append, not_or]
  exact ⟨by decide, dot_not_mem_strInt nonneg⟩

theorem id_direntry (id pid title : Str) (arturi : Option Str) :
    (direntry id pid title arturi).lookup "id" = some id := rfl

/-- The keys of a directory are distinct and have the one for its father. -/
theorem Sound.dir_keys (sound : t.Sound) {diridx : Int} (there : t.dirAt diridx = some dir) :
    (dir.map Prod.fst).Nodup ∧ dotdot ∈ dir.map Prod.fst := by
  obtain ⟨i, -, at_i⟩ := Option.bind_eq_some_iff.mp there
  have member := List.mem_of_getElem? at_i
  exact ⟨(sound.dirs dir member).distinct, sound.father dir member⟩

theorem Sound.not_filled_of_single (sound : t.Sound) {diridx : Int}
    (there : t.dirAt diridx = some dir) (single : dir.length = 1) : ¬ t.Filled diridx := by
  rintro ⟨dir', there', entry, member, not_special⟩
  rw [there, Option.some.injEq] at there'
  subst there'
  obtain ⟨only, rfl⟩ := List.length_eq_one_iff.mp single
  have father := (sound.dir_keys there).2
  rw [List.map_singleton, List.mem_singleton] at father
  rw [List.mem_singleton.mp member] at not_special
  exact not_special (.inl father.symm)

/-- A directory which has nothing in it but is no top directory has an entry for itself. -/
theorem Sound.dot_of_not_filled (sound : t.Sound) {diridx : Int}
    (there : t.dirAt diridx = some dir) (more : dir.length ≠ 1) (empty : ¬ t.Filled diridx) :
    dot ∈ dir.map Prod.fst := by
  obtain ⟨distinct, father⟩ := sound.dir_keys there
  by_contra no_dot
  have all_father : ∀ key ∈ dir.map Prod.fst, key = dotdot := by
    intro key member
    obtain ⟨entry, entry_mem, rfl⟩ := List.mem_map.mp member
    by_contra other
    refine empty ⟨dir, there, entry, entry_mem, ?_⟩
    rintro (same | same)
    · exact other same
    · exact no_dot (same ▸ member)
  have keys : dir.map Prod.fst = [dotdot] := by
    have replicated := List.eq_replicate_of_mem all_father
    rw [replicated] at distinct father ⊢
    have few := List.nodup_replicate.mp distinct
    have some_key : (dir.map Prod.fst).length ≠ 0 := fun none => by
      rw [none] at father
      cases father
    rw [show (dir.map Prod.fst).length = 1 by omega]
    rfl
  have length := congrArg List.length keys
  rw [List.length_map] at length
  exact more length

/-- Which directories a turn of the loop lists. -/
theorem lists_dir_iff (made : browseEntry env t pid entry = some es) {n : Int} (nonneg : 0 ≤ n) :
    Lists es (dirId n) ↔
      ¬ Special entry.1 ∧ entry.2.1 = n ∧ ∃ sub, t.dirAt n = some sub ∧ sub.length ≠ 1 := by
  obtain ⟨nm, thisdiridx, thisdocidx⟩ := entry
  unfold browseEntry at made
  dsimp only at made ⊢
  have nothing (none : es = []) : ¬ Lists es (dirId n) := by
    rintro ⟨e, member, -⟩
    rw [none] at member
    cases member
  split at made
  · rename_i special
    cases made
    exact iff_of_false (nothing rfl) fun listed => listed.1 special
  · rename_i not_special
    split at made
    · rename_i index
      obtain ⟨sub, there, made⟩ := Option.bind_eq_some_iff.mp made
      split at made
      · rename_i single
        cases made
        refine iff_of_false (nothing rfl) ?_
        rintro ⟨-, rfl, sub', there', more⟩
        rw [there, Option.some.injEq] at there'
        exact more (there' ▸ single)
      · rename_i more
        obtain ⟨arturi, -, made⟩ := Option.bind_eq_some_iff.mp made
        obtain ⟨nm', -, made⟩ := Option.bind_eq_some_iff.mp made
        cases made
        constructor
        · rintro ⟨e, member, of_n⟩
          rw [List.mem_singleton.mp member, id_direntry, Option.some.injEq] at of_n
          have same := dirId_injective index nonneg of_n
          exact ⟨not_special, same, sub, same ▸ there, more⟩
        · rintro ⟨-, rfl, -⟩
          exact ⟨_, List.mem_singleton_self _, rfl⟩
    · rename_i no_dir
      have other : ¬ (¬ Special nm ∧ thisdiridx = n ∧
          ∃ sub, t.dirAt n = some sub ∧ sub.length ≠ 1) := by
        rintro ⟨-, rfl, -⟩
        exact no_dir nonneg
      refine iff_of_false ?_ other
      split at made
      · cases made
        exact nothing rfl
      · obtain ⟨doc, -, made⟩ := Option.bind_eq_some_iff.mp made
        obtain ⟨e, entry_of, made⟩ := Option.bind_eq_some_iff.mp made
        cases made
        split
        · rename_i empty
          exact fun ⟨_, member, _⟩ => absurd member List.not_mem_nil
        · rename_i filled
          rintro ⟨e', member, of_n⟩
          rw [List.mem_singleton.mp member, (rcldoctoentry_ids entry_of filled).1,
            Option.some.injEq] at of_n
          exact dirId_ne_itemId _ _ of_n.symm

/-- A turn of the loop lists a document of the index. -/
theorem lists_item (sound : EntrySound t entry) (made : browseEntry env t pid entry = some es)
    (not_special : ¬ Special entry.1) (no_dir : entry.2.1 < 0) (has_doc : entry.2.2 ≠ -1) :
    Lists es (itemId entry.2.2) := by
  obtain ⟨nm, thisdiridx, thisdocidx⟩ := entry
  unfold browseEntry at made
  dsimp only at made has_doc no_dir not_special ⊢
  rw [if_neg not_special, if_neg (by omega), if_neg has_doc] at made
  obtain ⟨doc, there, made⟩ := Option.bind_eq_some_iff.mp made
  obtain ⟨e, entry_of, made⟩ := Option.bind_eq_some_iff.mp made
  cases made
  have audio : doc.get "mtype" ∈ audiomtypes := by
    obtain ⟨doc', there', audio⟩ := sound.audio (sound.docidx.resolve_right has_doc)
    rw [there, Option.some.injEq] at there'
    exact there' ▸ audio
  have filled : e ≠ [] := by
    rintro rfl
    rw [rcldoctoentry_eq audio, Option.map_eq_some_iff] at entry_of
    obtain ⟨_, -, same⟩ := entry_of
    cases same
  rw [if_neg filled]
  exact ⟨e, List.mem_singleton_self e, (rcldoctoentry_ids entry_of filled).1⟩

theorem lists_cons_iff {e : Entry} (other : e.lookup "id" ≠ some id) :
    Lists (e :: entries) id ↔ Lists entries id := by
  constructor
  · rintro ⟨e', member, same⟩
    rcases List.mem_cons.mp member with rfl | behind
    · exact absurd same other
    · exact ⟨e', behind, same⟩
  · rintro ⟨e', member, same⟩
    exact ⟨e', List.mem_cons_of_mem _ member, same⟩

theorem lists_of_perm {entries' : List Entry} (perm : entries.Perm entries') :
    Lists entries id ↔ Lists entries' id :=
  exists_congr fun _ => and_congr_left fun _ => perm.mem_iff

/-- The tag view is not one of the entries of the directory. -/
theorem tagView_ne (no_dot : '.' ∉ id) (title : Str) (arturi : Option Str) :
    (direntry (pid ++ "$tagview.0".toList) pid title arturi).lookup "id" ≠ some id := by
  rw [id_direntry, ne_eq, Option.some.injEq]
  rintro rfl
  exact no_dot (List.mem_append_right _ (by decide))

/-- When a request is answered. Sorting the entries and putting the tag view in front changes
nothing for the other ids. -/
theorem browseDir_spec {idx : Int} (there : t.dirAt idx = some dir) {found : List (List Entry)}
    (all : dir.mapM (browseEntry env t pid) = some found) :
    ((∃ entries, browseDir env opts t pid idx = some entries) ↔
        (hasTagView opts pid → t.showtopart dir = true → (t.arturifordir env idx).isSome = true)) ∧
      ∀ entries, browseDir env opts t pid idx = some entries →
        ∀ id, '.' ∉ id → (Lists entries id ↔ Lists found.flatten id) := by
  have sorted (id : Str) :
      Lists (if idx ∈ t.playlists.map Int.ofNat then found.flatten
        else found.flatten.mergeSort fun e1 e2 => cmpentries opts e1 e2 ≠ .gt) id ↔
        Lists found.flatten id := by
    split
    · exact .rfl
    · exact lists_of_perm (List.mergeSort_perm _ _)
  unfold browseDir
  simp only [there, all, bind, Option.bind_some]
  by_cases view : hasTagView opts pid
  · rw [if_pos view]
    by_cases top : t.showtopart dir = true
    · rw [if_pos top]
      cases art : t.arturifordir env idx with
      | none => exact ⟨iff_of_false (fun ⟨_, ran⟩ => by cases ran)
          fun art => absurd (art view top) Bool.false_ne_true, fun _ ran => by cases ran⟩
      | some arturi =>
          refine ⟨iff_of_true ⟨_, rfl⟩ fun _ _ => rfl, ?_⟩
          rintro entries ⟨⟩ id no_dot
          exact (lists_cons_iff (tagView_ne no_dot _ _)).trans (sorted id)
    · rw [if_neg top]
      refine ⟨iff_of_true ⟨_, rfl⟩ fun _ holds => absurd holds top, ?_⟩
      rintro entries ⟨⟩ id no_dot
      exact (lists_cons_iff (tagView_ne no_dot _ _)).trans (sorted id)
  · rw [if_neg view]
    refine ⟨iff_of_true ⟨_, rfl⟩ fun holds => absurd holds view, ?_⟩
    rintro entries ⟨⟩ id -
    exact sorted id

/-- The art of what a directory lists can be looked up. -/
structure ArtFound (env : Env) (t : Folders) (dir : Dir) : Prop where
  dirs : ∀ entry ∈ dir, ¬ Special entry.1 → 0 ≤ entry.2.1 → t.Filled entry.2.1 →
    (t.arturifordir env entry.2.1).isSome = true
  docs : ∀ entry ∈ dir, ¬ Special entry.1 → entry.2.1 < 0 → entry.2.2 ≠ -1 → ∀ doc,
    t.docforidx entry.2.2 = some doc → (fillEntry env doc []).isSome = true

/-- A sub-directory which has an entry for itself has another one besides. -/
def NoneEmpty (t : Folders) (dir : Dir) : Prop :=
  ∀ entry ∈ dir, ¬ Special entry.1 → 0 ≤ entry.2.1 → ∀ sub, t.dirAt entry.2.1 = some sub →
    dot ∈ sub.map Prod.fst → t.Filled entry.2.1

theorem dirAt_of_lt {diridx : Int} (nonneg : 0 ≤ diridx) (inside : diridx < t.dirvec.length) :
    ∃ dir, t.dirAt diridx = some dir := by
  obtain ⟨k, rfl⟩ := Int.eq_ofNat_of_zero_le nonneg
  have inside' : k < t.dirvec.length := by omega
  exact ⟨_, dirAt_natCast (List.getElem?_eq_getElem inside')⟩

/-- A turn of the loop on a directory fails only for want of the art. -/
theorem Sound.browseEntry_dir (sound : t.Sound) (fits : EntrySound t entry)
    (not_special : ¬ Special entry.1) (index : 0 ≤ entry.2.1)
    (none_empty : ∀ sub, t.dirAt entry.2.1 = some sub → dot ∈ sub.map Prod.fst →
      t.Filled entry.2.1) :
    (browseEntry env t pid entry).isSome = true ↔
      (t.Filled entry.2.1 → (t.arturifordir env entry.2.1).isSome = true) := by
  obtain ⟨sub, there⟩ := dirAt_of_lt index fits.inside
  obtain ⟨nm, text⟩ := Option.isSome_iff_exists.mp (fits.text index)
  obtain ⟨key, thisdiridx, thisdocidx⟩ := entry
  dsimp only at *
  simp only [browseEntry, if_neg not_special, if_pos index, there, text, bind, Option.bind_some]
  by_cases single : sub.length = 1
  · rw [if_pos single]
    exact iff_of_true rfl fun filled => absurd filled (sound.not_filled_of_single there single)
  · rw [if_neg single]
    have filled : t.Filled thisdiridx := by
      by_contra empty
      exact empty (none_empty sub there (sound.dot_of_not_filled there single empty))
    rw [forall_prop_of_true filled]
    cases t.arturifordir env thisdiridx with
    | none => exact .rfl
    | some arturi => exact iff_of_true rfl rfl

theorem browseEntry_doc (fits : EntrySound t entry) (not_special : ¬ Special entry.1)
    (no_dir : entry.2.1 < 0) :
    (browseEntry env t pid entry).isSome = true ↔
      (entry.2.2 ≠ -1 → ∀ doc, t.docforidx entry.2.2 = some doc →
        (fillEntry env doc []).isSome = true) := by
  obtain ⟨key, thisdiridx, thisdocidx⟩ := entry
  have outside : ¬ 0 ≤ thisdiridx := by
    dsimp only at no_dir
    omega
  dsimp only at *
  simp only [browseEntry, if_neg not_special, if_neg outside]
  by_cases none : thisdocidx = -1
  · rw [if_pos none]
    exact iff_of_true rfl fun has_doc => absurd none has_doc
  · rw [if_neg none, forall_prop_of_true none]
    obtain ⟨doc, there, audio⟩ := fits.audio (fits.docidx.resolve_right none)
    dsimp only at there
    simp only [there, bind, Option.bind_some, rcldoctoentry_eq audio, Option.some.injEq,
      forall_eq']
    cases fillEntry env doc [] with
    | none => exact .rfl
    | some li => exact iff_of_true rfl rfl

/-- The loop fails only for want of the art. -/
theorem Sound.mapM_isSome_iff (sound : t.Sound) {idx : Int} (there : t.dirAt idx = some dir)
    (none_empty : t.NoneEmpty dir) :
    (∃ found, dir.mapM (browseEntry env t pid) = some found) ↔ ArtFound env t dir := by
  obtain ⟨i, -, at_i⟩ := Option.bind_eq_some_iff.mp there
  have fits := (sound.dirs dir (List.mem_of_getElem? at_i)).entries
  have each : (∃ found, dir.mapM (browseEntry env t pid) = some found) ↔
      ∀ entry ∈ dir, (browseEntry env t pid entry).isSome = true := by
    simp only [← Option.ne_none_iff_exists', ne_eq, MapM.eq_none_iff, not_exists, not_and,
      Option.isSome_iff_ne_none]
  rw [each]
  constructor
  · intro all
    refine ⟨fun entry member not_special index => ?_, fun entry member not_special no_dir => ?_⟩
    · exact (sound.browseEntry_dir (fits entry member) not_special index
        (none_empty entry member not_special index)).mp (all entry member)
    · exact (browseEntry_doc (fits entry member) not_special no_dir).mp (all entry member)
  · intro art entry member
    by_cases special : Special entry.1
    · rw [browseEntry, if_pos special]
      rfl
    by_cases index : 0 ≤ entry.2.1
    · exact (sound.browseEntry_dir (fits entry member) special index
        (none_empty entry member special index)).mpr (art.dirs entry member special index)
    · exact (browseEntry_doc (fits entry member) special (by omega)).mpr
        (art.docs entry member special (by omega))

theorem lists_flatten_iff {found : List (List Entry)}
    (all : dir.mapM (browseEntry env t pid) = some found) :
    Lists found.flatten id ↔
      ∃ entry ∈ dir, ∃ es, browseEntry env t pid entry = some es ∧ Lists es id := by
  constructor
  · rintro ⟨e, member, same⟩
    obtain ⟨es, es_mem, e_mem⟩ := List.mem_flatten.mp member
    obtain ⟨entry, entry_mem, made⟩ := MapM.mem_of_eq_some all es_mem
    exact ⟨entry, entry_mem, es, made, e, e_mem, same⟩
  · rintro ⟨entry, entry_mem, es, made, e, e_mem, same⟩
    obtain ⟨es', es_mem, made'⟩ := MapM.mem_of_mem all entry_mem
    rw [made, Option.some.injEq] at made'
    exact ⟨e, List.mem_flatten.mpr ⟨es', es_mem, made' ▸ e_mem⟩, same⟩

/-- Which directories are among the entries. -/
theorem lists_flatten_dir {found : List (List Entry)}
    (all : dir.mapM (browseEntry env t pid) = some found) (member : entry ∈ dir)
    (not_special : ¬ Special entry.1) (index : 0 ≤ entry.2.1) :
    Lists found.flatten (dirId entry.2.1) ↔
      ∃ sub, t.dirAt entry.2.1 = some sub ∧ sub.length ≠ 1 := by
  rw [lists_flatten_iff all]
  constructor
  · rintro ⟨entry', -, es, made, listed⟩
    exact ((lists_dir_iff made index).mp listed).2.2
  · intro more
    obtain ⟨es, -, made⟩ := MapM.mem_of_mem all member
    exact ⟨entry, member, es, made, (lists_dir_iff made index).mpr ⟨not_special, rfl, more⟩⟩

/-- An empty sub-directory with an entry for itself is listed. -/
theorem Sound.noneEmpty_of_listsRight (sound : t.Sound) {idx : Int} (there : t.dirAt idx = some dir)
    (ran : browseDir env opts t pid idx = some entries) (right : ListsRight t dir entries) :
    t.NoneEmpty dir := by
  obtain ⟨dir', there', all⟩ := Option.bind_eq_some_iff.mp ran
  rw [there, Option.some.injEq] at there'
  subst there'
  obtain ⟨found, all, -⟩ := Option.bind_eq_some_iff.mp all
  intro entry member not_special index sub sub_at has_dot
  refine (right.dirs entry member not_special index).mp ?_
  rw [(browseDir_spec there all).2 entries ran _ (dot_not_mem_dirId index),
    lists_flatten_dir all member not_special index]
  refine ⟨sub, sub_at, fun single => ?_⟩
  obtain ⟨only, rfl⟩ := List.length_eq_one_iff.mp single
  have father := (sound.dir_keys sub_at).2
  rw [List.map_singleton, List.mem_singleton] at father has_dot
  rw [← has_dot] at father
  exact absurd father (by decide)

theorem browse_container {idx : Int} (container : t.objidtoidx pid = some (false, idx, [])) :
    browse env opts t pid = browseDir env opts t pid (t.shown idx) := by
  rw [browse, container]
  rfl

/-- The answer is the right one just when none of the sub-directories which the test takes for
filled is empty, and all of the art can be looked up. -/
theorem listsRight_iff {topdirs : List Str} {rcldocs : List Doc} {idx : Int}
    (built : rcl2folders env topdirs rcldocs = some t)
    (container : t.objidtoidx pid = some (false, idx, []))
    (there : t.dirAt (t.shown idx) = some dir) :
    (∃ entries, browse env opts t pid = some entries ∧ ListsRight t dir entries) ↔
      t.NoneEmpty dir ∧ ArtFound env t dir ∧
        (hasTagView opts pid → t.showtopart dir = true →
          (t.arturifordir env (t.shown idx)).isSome = true) := by
  have sound := sound_rcl2folders built
  rw [browse_container container]
  constructor
  · rintro ⟨entries, ran, right⟩
    obtain ⟨dir', there', all⟩ := Option.bind_eq_some_iff.mp ran
    rw [there, Option.some.injEq] at there'
    subst there'
    obtain ⟨found, all, -⟩ := Option.bind_eq_some_iff.mp all
    obtain ⟨answered, same⟩ := browseDir_spec there all
    have none_empty := sound.noneEmpty_of_listsRight there ran right
    exact ⟨none_empty, (sound.mapM_isSome_iff there none_empty).mp ⟨found, all⟩,
      answered.mp ⟨entries, ran⟩⟩
  · rintro ⟨none_empty, art, top⟩
    have turns : (∃ found, dir.mapM (browseEntry env t pid) = some found) ↔ ArtFound env t dir :=
      sound.mapM_isSome_iff there none_empty
    obtain ⟨found, all⟩ := turns.mpr art
    obtain ⟨answered, same⟩ := browseDir_spec there all
    obtain ⟨entries, ran⟩ := answered.mpr top
    refine ⟨entries, ran, fun entry member not_special index => ?_,
      fun entry member not_special no_dir has_doc => ?_⟩
    · rw [same entries ran _ (dot_not_mem_dirId index),
        lists_flatten_dir all member not_special index]
      constructor
      · rintro ⟨sub, sub_at, more⟩
        by_contra empty
        exact empty (none_empty entry member not_special index sub sub_at
          (sound.dot_of_not_filled sub_at more empty))
      · intro filled
        have ⟨sub, sub_at, _⟩ := filled
        exact ⟨sub, sub_at, fun single => sound.not_filled_of_single sub_at single filled⟩
    · obtain ⟨i, -, at_i⟩ := Option.bind_eq_some_iff.mp there
      have fits := (sound.dirs dir (List.mem_of_getElem? at_i)).entries entry member
      rw [same entries ran _ (dot_not_mem_itemId (fits.docidx.resolve_right has_doc)),
        lists_flatten_iff all]
      obtain ⟨es, -, made⟩ := MapM.mem_of_mem all member
      exact ⟨entry, member, es, made, lists_item fits made not_special no_dir has_doc⟩

/-- A track in a directory is listed, and the directory too. -/
theorem listsRight_track :
    ∃ t dir, rcl2folders (bareEnv []) ["/m".toList] [docAt "audio/mpeg" "/m/a/b.mp3"] = some t ∧
      ∃ entries, browse (bareEnv []) {} t idprefix = some entries ∧ ListsRight t dir entries := by
  have table : (rcl2folders (bareEnv []) ["/m".toList] [docAt "audio/mpeg" "/m/a/b.mp3"]).any
      (fun t => t.objidtoidx idprefix = some (false, 0, []) ∧
        t.dirAt (t.shown 0) = some [(dotdot, 0, -1), (.text "a".toList, 2, -1)] ∧
        t.dirAt 2 = some [(dotdot, 1, -1), (dot, 2, -1), (.text "b.mp3".toList, -1, 0)] ∧
        (t.arturifordir (bareEnv []) 2).isSome) = true := by
    decide
  obtain ⟨t, built, facts⟩ := (Option.any_eq_true _ _).mp table
  obtain ⟨container, there, sub_at, art⟩ := of_decide_eq_true facts
  have filled : t.Filled 2 := ⟨_, sub_at, (.text "b.mp3".toList, -1, 0), by decide, by decide⟩
  refine ⟨t, _, built, (listsRight_iff built container there).mpr ⟨?_, ⟨?_, ?_⟩, ?_⟩⟩
  · simp only [NoneEmpty, List.forall_mem_cons]
    exact ⟨fun other => absurd (.inl rfl) other, fun _ _ _ _ _ => filled, List.forall_mem_nil _⟩
  · simp only [List.forall_mem_cons]
    exact ⟨fun other => absurd (.inl rfl) other, fun _ _ _ => art, List.forall_mem_nil _⟩
  · simp only [List.forall_mem_cons]
    exact ⟨fun other => absurd (.inl rfl) other, fun _ no_dir => absurd no_dir (by decide),
      List.forall_mem_nil _⟩
  · exact fun view => absurd rfl view.2.1

/-- A directory with nothing in it, and a track next to it. -/
def emptyNextToTrack : List Doc :=
  [docAt "inode/directory" "/m/a", docAt "audio/mpeg" "/m/b.mp3"]

/-- The directory is listed. -/
theorem not_listsRight_empty :
    ¬ ∀ (env : Env) (opts : BrowseOpts) (topdirs : List Str) (rcldocs : List Doc) (t : Folders)
      (pid : Str) (idx : Int) (dir : Dir), rcl2folders env topdirs rcldocs = some t →
        t.objidtoidx pid = some (false, idx, []) → t.dirAt (t.shown idx) = some dir →
          ∃ entries, browse env opts t pid = some entries ∧ ListsRight t dir entries := by
  intro claim
  have table : (rcl2folders (bareEnv []) ["/m".toList] emptyNextToTrack).any
      (fun t => t.objidtoidx idprefix = some (false, 0, []) ∧
        t.dirAt (t.shown 0) =
          some [(dotdot, 0, -1), (.text "a".toList, 2, 0), (.text "b.mp3".toList, -1, 1)] ∧
        t.dirAt 2 = some [(dotdot, 1, -1), (dot, 2, 0)]) = true := by
    decide
  obtain ⟨t, built, facts⟩ := (Option.any_eq_true _ _).mp table
  obtain ⟨container, there, sub_at⟩ := of_decide_eq_true facts
  obtain ⟨entries, ran, right⟩ :=
    claim (bareEnv []) {} ["/m".toList] emptyNextToTrack t idprefix 0 _ built container there
  rw [browse_container container] at ran
  have none_empty := (sound_rcl2folders built).noneEmpty_of_listsRight there ran right
  obtain ⟨sub, sub_at', entry, member, not_special⟩ :=
    none_empty (.text "a".toList, 2, 0) (by decide) (by decide) (by decide) _ sub_at (by decide)
  rw [sub_at, Option.some.injEq] at sub_at'
  subst sub_at'
  have all : ∀ entry ∈ [(dotdot, ((1 : Int), (-1 : Int))), (dot, (2, 0))], Special entry.1 := by
    decide
  exact not_special (all entry member)

end Listed

end Upmpdcli.Uprcl.Folders
