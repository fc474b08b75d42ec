import Upmpdcli.Lib.MapM
import Upmpdcli.Cdplugins.Uprcl.Playlists

set_option autoImplicit false

/- Which entries of the playlists section are found again by their ids. -/
namespace Upmpdcli.Uprcl.Playlists

/-- The id of a playlist, or of the list of the radios behind them. -/
def containerId (i : Nat) : Str := playlistsId ++ "$p".toList ++ Text.str i

def itemId (i k : Nat) : Str := containerId i ++ "$e".toList ++ Text.str k

/-- The ids of what can be browsed in the section. -/
def containers (p : Playlists) : List Str :=
  playlistsId :: (List.range p.pldocs.length).map fun i => containerId (i + 1)

/-- The entries have ids of their own, and the metadata of each id are its entry. -/
structure IdsResolve (p : Playlists) (env : Env) (entries : List (Option Entry)) : Prop where
  distinct : (entries.map fun entry => entry.bind (List.lookup "id")).Nodup
  resolves : ∀ entry ∈ entries, ∃ e id, entry = some e ∧ e.lookup "id" = some id ∧
    p.browse env id .metadata = some [some e]

section Ids

variable {p : Playlists} {i k : Nat}

theorem length_pldocs_pos (p : Playlists) : 0 < p.pldocs.length := by
  simp [pldocs, pldocsidx]

theorem dollar_not_mem_str (n : Nat) : '$' ∉ Text.str n := fun member =>
  absurd (Text.isDigit_of_mem_str member) (by decide)

theorem containerId_injective : Function.Injective containerId := fun _ _ same =>
  Text.str_injective (List.append_cancel_left same)

theorem itemId_injective (i : Nat) : Function.Injective (itemId i) := fun _ _ same =>
  Text.str_injective (List.append_cancel_left same)

theorem objidtoidx_append (p : Playlists) (path : Str) :
    p.objidtoidx (playlistsId ++ path) =
      (idxsOfPath path).filter fun idxs => idxs.1 ≤ (p.pldocs.length : Int) := by
  rw [objidtoidx, if_pos (List.isPrefixOf_iff_prefix.mpr (List.prefix_append _ _)),
    List.drop_left]

theorem objidtoidx_root (p : Playlists) : p.objidtoidx playlistsId = some (0, -1) := by
  have behind := objidtoidx_append p []
  rw [List.append_nil] at behind
  rw [behind, idxsOfPath, if_pos rfl, Option.filter_some, if_pos (by simp)]

/-- The first two characters of the path are no part of a number. -/
theorem find_behind_p (rest : Str) : Text.find "$e".toList ('$' :: 'p' :: rest) =
    (Text.find "$e".toList rest).map (· + 2) := by
  have first : ("$e".toList).isPrefixOf ('$' :: 'p' :: rest) = false := by
    simp [List.isPrefixOf]
  have second : ("$e".toList).isPrefixOf ('p' :: rest) = false := by
    simp [List.isPrefixOf]
  rw [Text.find, first, if_neg Bool.false_ne_true, Text.find, second,
    if_neg Bool.false_ne_true, Option.map_map]
  rfl

theorem objidtoidx_container (inside : i ≤ p.pldocs.length) :
    p.objidtoidx (containerId i) = some ((i : Int), -1) := by
  have path : containerId i = playlistsId ++ ('$' :: 'p' :: Text.str i) := by
    simp [containerId]
  have no_item : Text.find "$e".toList ('$' :: 'p' :: Text.str i) = none := by
    rw [find_behind_p]
    exact congrArg _ (Text.find_eq_none (dollar_not_mem_str i))
  rw [path, objidtoidx_append, idxsOfPath, if_neg (by simp), if_neg (by simp), no_item]
  simp [Text.int_str, inside]

theorem objidtoidx_item (inside : i ≤ p.pldocs.length) :
    p.objidtoidx (itemId i k) = some ((i : Int), (k : Int)) := by
  have path : itemId i k =
      playlistsId ++ ('$' :: 'p' :: (Text.str i ++ "$e".toList ++ Text.str k)) := by
    simp [itemId, containerId]
  have item : Text.find "$e".toList ('$' :: 'p' :: (Text.str i ++ "$e".toList ++ Text.str k)) =
      some ((Text.str i).length + 2) := by
    rw [find_behind_p]
    exact congrArg _ (Text.find_append (dollar_not_mem_str i) _)
  rw [path, objidtoidx_append, idxsOfPath, if_neg (by simp), if_neg (by simp), item]
  simp [Text.int_str, inside]

end Ids

section Entries

variable {p : Playlists} {env : Env} {i : Nat} {pid : Str} {plpath : Bytes}

theorem idxtoentry_id (lower : 1 ≤ i) (upper : i ≤ p.pldocs.length) {entry : Option Entry}
    (found : p.idxtoentry i = some entry) :
    ∃ e, entry = some e ∧ e.lookup "id" = some (containerId i) := by
  unfold idxtoentry at found
  dsimp only at found
  split at found
  · cases found
    exact ⟨_, rfl, by simp [direntry, containerId]⟩
  · rename_i not_radios
    have is_playlist : 1 ≤ (i : Int) ∧ (i : Int) < p.pldocs.length := by omega
    rw [if_pos is_playlist, Option.map_eq_some_iff] at found
    obtain ⟨doc, -, rfl⟩ := found
    exact ⟨_, rfl, by simp [direntry, containerId]⟩

/-- A container of the section is found by its id. -/
theorem browse_container (lower : 1 ≤ i) (upper : i ≤ p.pldocs.length) :
    p.browse env (containerId i) .metadata = (p.idxtoentry i).map fun entry => [entry] := by
  have not_root : (i : Int) ≠ 0 := by omega
  rw [browse, objidtoidx_container upper]
  simp only [bind, Option.bind_some, if_neg not_root, if_true]
  split
  · rfl
  · rename_i past
    rw [if_pos (by omega)]

/-- The entries have the ids of a container, in order. -/
def Numbered (pid : Str) (entries : List Entry) : Prop :=
  ∀ (k : Nat) e, entries[k]? = some e → e.lookup "id" = some (pid ++ "$e".toList ++ Text.str k)

theorem numbered_nil (pid : Str) : Numbered pid [] := by simp [Numbered]

theorem Numbered.append {entries : List Entry} (numbered : Numbered pid entries) {e : Entry}
    (id : e.lookup "id" = some (pid ++ "$e".toList ++ Text.str entries.length)) :
    Numbered pid (entries ++ [e]) := by
  intro k other there
  rw [List.getElem?_append] at there
  split at there
  · exact numbered k other there
  · rename_i past
    rw [List.getElem?_singleton] at there
    split at there
    · rename_i last
      cases there
      rwa [show k = entries.length by omega]
    · cases there

theorem listLine_numbered {entries entries' : List Entry} {url : Bytes}
    (numbered : Numbered pid entries)
    (listed : p.listLine env plpath pid entries url = some entries') : Numbered pid entries' := by
  rw [listLine, Option.bind_eq_some_iff] at listed
  obtain ⟨found, -, listed⟩ := listed
  cases found with
  | none =>
      cases listed
      exact numbered
  | some doc =>
      dsimp only at listed
      rw [Option.map_eq_some_iff] at listed
      obtain ⟨e, made, rfl⟩ := listed
      split
      · exact numbered
      · rename_i filled
        exact numbered.append (rcldoctoentry_ids made filled).1

theorem listLines_numbered {lines : List Bytes} {entries entries' : List Entry}
    (numbered : Numbered pid entries)
    (listed : lines.foldlM (p.listLine env plpath pid) entries = some entries') :
    Numbered pid entries' := by
  induction lines generalizing entries with
  | nil =>
      cases listed
      exact numbered
  | cons line rest ih =>
      simp only [List.foldlM_cons, bind, Option.bind_eq_some_iff] at listed
      obtain ⟨between, first, behind⟩ := listed
      exact ih (listLine_numbered numbered first) behind

theorem playlistatidx_numbered {entries : List Entry}
    (listed : p.playlistatidx env i = some entries) : Numbered (containerId i) entries := by
  simp only [playlistatidx, bind, Option.bind_eq_some_iff, Text.strInt_natCast] at listed
  obtain ⟨doc, -, listed⟩ := listed
  split at listed
  · cases listed
    exact numbered_nil _
  · exact listLines_numbered (numbered_nil _) listed

theorem radioToEntry_id (no_dollar : pid.getLast? ≠ some '$') (index : Nat) (radio : Radio) :
    (radioToEntry pid index radio).lookup "id" = some (pid ++ "$e".toList ++ Text.str index) := by
  have other : "pid" ≠ "id" := by decide
  unfold radioToEntry
  rw [if_neg no_dollar, Dict.lookup_cons_of_ne other, List.lookup_cons_self]
  simp

theorem radioEntries_numbered (p : Playlists) :
    Numbered (containerId p.pldocs.length) p.radioEntries := by
  intro k e there
  rw [radioEntries, List.getElem?_map, Option.map_eq_some_iff] at there
  obtain ⟨⟨radio, index⟩, at_k, rfl⟩ := there
  rw [List.getElem?_zipIdx, Option.map_eq_some_iff] at at_k
  obtain ⟨radio', -, same⟩ := at_k
  cases same
  have no_dollar : (containerId p.pldocs.length).getLast? ≠ some '$' := by
    intro last
    rw [containerId, List.getLast?_append_of_ne_nil _ (Text.str_ne_nil _)] at last
    exact dollar_not_mem_str _ (List.mem_of_getLast? last)
  exact (radioToEntry_id no_dollar (0 + k) radio).trans (by rw [Nat.zero_add])

/-- Numbered entries have ids of their own. -/
theorem Numbered.nodup {entries : List Entry} (numbered : Numbered (containerId i) entries) :
    ((entries.map some).map fun entry : Option Entry => entry.bind (List.lookup "id")).Nodup := by
  have ids : ((entries.map some).map fun entry : Option Entry => entry.bind (List.lookup "id")) =
      (List.range entries.length).map fun k => some (itemId i k) := by
    refine List.ext_getElem (by simp) fun k inside _ => ?_
    simp only [List.length_map] at inside
    simpa [itemId] using numbered k entries[k] (List.getElem?_eq_getElem inside)
  rw [ids]
  exact List.nodup_range.map fun k k' same => itemId_injective i (Option.some.inj same)

/-- A playlist, whose entries are found by their ids. -/
theorem playlist_resolves (lower : 1 ≤ i) (upper : i < p.pldocs.length) {entries : List Entry}
    (listed : p.playlistatidx env i = some entries) : IdsResolve p env (entries.map some) where
  distinct := (playlistatidx_numbered listed).nodup
  resolves entry member := by
    obtain ⟨e, inside, rfl⟩ := List.mem_map.mp member
    obtain ⟨k, in_range, rfl⟩ := List.getElem_of_mem inside
    have at_k := List.getElem?_eq_getElem in_range
    refine ⟨_, _, rfl, playlistatidx_numbered listed k _ at_k, ?_⟩
    have not_root : (i : Int) ≠ 0 := by omega
    have is_playlist : (i : Int) < p.pldocs.length := by omega
    have is_item : (k : Int) ≠ -1 := by omega
    have is_entry : (0 : Int) ≤ k ∧ (k : Int) < entries.length := by omega
    rw [browse, ← itemId, objidtoidx_item upper.le]
    simp only [bind, Option.bind_some, if_neg not_root, if_pos is_playlist, if_neg is_item, listed,
      if_pos is_entry, Int.toNat_natCast, at_k]
    rfl

end Entries

section Browse

variable {p : Playlists} {env : Env}

theorem browse_root_children (p : Playlists) (env : Env) :
    p.browse env playlistsId .children =
      (((List.range p.pldocs.length).tail.mapM fun i : Nat => p.idxtoentry i).bind fun entries =>
        (p.idxtoentry p.pldocs.length).map fun radios => entries ++ [radios]) := by
  rw [browse, objidtoidx_root]
  simp only [bind, Option.map_eq_bind, pure]
  rfl

theorem browse_playlist_children {i : Nat} (lower : 1 ≤ i) (upper : i < p.pldocs.length) :
    p.browse env (containerId i) .children =
      (p.playlistatidx env i).map fun entries => entries.map some := by
  have not_root : (i : Int) ≠ 0 := by omega
  have not_radios : (i : Int) ≠ p.pldocs.length := by omega
  rw [browse, objidtoidx_container upper.le]
  simp only [bind, Option.bind_some, if_neg not_root, if_neg not_radios]

theorem browse_radios_children (p : Playlists) (env : Env) :
    p.browse env (containerId p.pldocs.length) .children = some (p.radioEntries.map some) := by
  have filled := length_pldocs_pos p
  have not_root : (p.pldocs.length : Int) ≠ 0 := by omega
  rw [browse, objidtoidx_container le_rfl]
  simp only [bind, Option.bind_some, if_neg not_root, if_true]
  rfl

/-- The metadata of the first radio are not found. -/
theorem browse_first_radio (p : Playlists) (env : Env) :
    p.browse env (itemId p.pldocs.length 0) .metadata = some [] := by
  have filled := length_pldocs_pos p
  have not_root : (p.pldocs.length : Int) ≠ 0 := by omega
  have not_playlist : ¬ (p.pldocs.length : Int) < p.pldocs.length := by omega
  rw [browse, objidtoidx_item le_rfl]
  simp only [bind, Option.bind_some, if_neg not_root, if_neg not_playlist, if_true]
  rfl

theorem root_resolves {entries : List (Option Entry)}
    (listed : p.browse env playlistsId .children = some entries) : IdsResolve p env entries := by
  rw [browse_root_children, Option.bind_eq_some_iff] at listed
  obtain ⟨lists, all, listed⟩ := listed
  rw [Option.map_eq_some_iff] at listed
  obtain ⟨radios, last, rfl⟩ := listed
  have filled := length_pldocs_pos p
  have bounds : ∀ i ∈ (List.range p.pldocs.length).tail, 1 ≤ i ∧ i < p.pldocs.length := by
    intro i inside
    obtain ⟨j, at_j, rfl⟩ := List.getElem_of_mem inside
    rw [List.length_tail, List.length_range] at at_j
    rw [List.getElem_tail, List.getElem_range]
    omega
  have radios_id : radios.bind (List.lookup "id") = some (containerId p.pldocs.length) := by
    obtain ⟨e, rfl, id⟩ := idxtoentry_id (by omega) le_rfl last
    exact id
  have ids : lists.map (fun entry => entry.bind (List.lookup "id")) =
      (List.range p.pldocs.length).tail.map fun i => some (containerId i) := by
    refine MapM.map_of_eq_some all fun i inside entry found => ?_
    obtain ⟨lower, upper⟩ := bounds i inside
    obtain ⟨e, rfl, id⟩ := idxtoentry_id lower upper.le found
    exact id
  constructor
  · rw [List.map_append, List.map_singleton, radios_id, ids, ← List.concat_eq_append]
    refine List.Nodup.concat ?_ ?_
    · intro inside
      obtain ⟨i, there, same⟩ := List.mem_map.mp inside
      have := containerId_injective (Option.some.inj same)
      have := (bounds i there).2
      omega
    · refine ((List.nodup_range).tail).map fun i i' same => ?_
      exact containerId_injective (Option.some.inj same)
  · intro entry member
    obtain ⟨i, lower, upper, found⟩ : ∃ i, 1 ≤ i ∧ i ≤ p.pldocs.length ∧
        p.idxtoentry i = some entry := by
      rcases List.mem_append.mp member with list | radio
      · obtain ⟨i, inside, found⟩ := MapM.mem_of_eq_some all list
        exact ⟨i, (bounds i inside).1, (bounds i inside).2.le, found⟩
      · exact ⟨p.pldocs.length, by omega, le_rfl, List.mem_singleton.mp radio ▸ last⟩
    obtain ⟨e, rfl, id⟩ := idxtoentry_id lower upper found
    exact ⟨e, containerId i, rfl, id, by rw [browse_container lower upper, found, Option.map_some]⟩

end Browse

/-- All ids of the section lead back to their entries exactly when there is no radio. -/
theorem idsResolve_iff (p : Playlists) (env : Env) :
    (∀ pid ∈ p.containers, ∀ entries, p.browse env pid .children = some entries →
      IdsResolve p env entries) ↔ p.radios = [] := by
  have filled := length_pldocs_pos p
  constructor
  · intro all
    by_contra some_radio
    obtain ⟨first, rest, has_radios⟩ := List.exists_cons_of_ne_nil some_radio
    have radios_listed : containerId p.pldocs.length ∈ p.containers := by
      refine List.mem_cons_of_mem _ (List.mem_map.mpr ⟨p.pldocs.length - 1, ?_, ?_⟩)
      · exact List.mem_range.mpr (by omega)
      · rw [Nat.sub_add_cancel filled]
    have resolves := all _ radios_listed _ (browse_radios_children p env)
    obtain ⟨e, at_first⟩ : ∃ e, p.radioEntries[0]? = some e := by
      simp [radioEntries, has_radios]
    have id := radioEntries_numbered p 0 e at_first
    obtain ⟨_, id', same, has_id, found⟩ :=
      resolves.resolves (some e) (List.mem_map_of_mem (List.mem_of_getElem? at_first))
    cases same
    rw [id, Option.some.injEq] at has_id
    rw [← has_id, ← itemId, browse_first_radio] at found
    cases found
  · intro no_radio pid member entries listed
    rcases List.mem_cons.mp member with rfl | behind
    · exact root_resolves listed
    · obtain ⟨i, inside, rfl⟩ := List.mem_map.mp behind
      rw [List.mem_range] at inside
      by_cases is_playlist : i + 1 < p.pldocs.length
      · rw [browse_playlist_children (by omega) is_playlist, Option.map_eq_some_iff] at listed
        obtain ⟨listed, at_idx, rfl⟩ := listed
        exact playlist_resolves (by omega) is_playlist at_idx
      · have radios : i + 1 = p.pldocs.length := by omega
        rw [radios, browse_radios_children, radioEntries, no_radio] at listed
        cases listed
        exact ⟨by simp, by simp⟩

/-- A section with one radio and no playlist. -/
def oneRadio : Playlists where
  folders := { rcldocs := [] }
  radios := [⟨"R".toList, "http://r/s".toList, [], []⟩]

/-- The one radio is listed, but its metadata are not found. -/
theorem not_idsResolve_oneRadio :
    ¬ ∀ pid ∈ oneRadio.containers, ∀ entries,
      oneRadio.browse (bareEnv []) pid .children = some entries →
        IdsResolve oneRadio (bareEnv []) entries := by
  intro all
  have resolves := all (containerId 1) (by decide) _ (browse_radios_children oneRadio _)
  obtain ⟨e, id, same, has_id, found⟩ := resolves.resolves
    (some (radioToEntry (containerId 1) 0 ⟨"R".toList, "http://r/s".toList, [], []⟩)) (by decide)
  cases same
  rw [radioToEntry_id (by decide), Option.some.injEq] at has_id
  have none_found := browse_first_radio oneRadio (bareEnv [])
  rw [show itemId oneRadio.pldocs.length 0 = id from has_id, found] at none_found
  cases none_found

end Upmpdcli.Uprcl.Playlists
