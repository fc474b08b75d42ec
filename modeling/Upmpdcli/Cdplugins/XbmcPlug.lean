import Upmpdcli.Cdplugins.Routing

set_option autoImplicit false

/- The directories which the plugins make of the items of their services. -/
namespace Upmpdcli.Routing

/-- An item of a streaming service; `none` is an attribute which it does not have. -/
structure Item where
  id : Text
  name : Text
  maxsamprate : Option Text := none
  maxbitdepth : Option Text := none
  image : Option Text := none
  upnpclass : Option Text := none
  artist : Option Text := none
  description : Option Text := none

abbrev Entry := List (String × Text)

/-- What is there and is not empty. -/
def given? (field : Option Text) : Option Text := field.filter (· ≠ [])

def direntry (id pid title : Text) (arturi artist upnpclass description : Option Text) : Entry :=
  [("id", id), ("pid", pid), ("tt", title), ("tp", "ct".toList), ("searchable", ['1'])] ++
    ((given? arturi).map fun text => ("upnp:albumArtURI", text)).toList ++
    ((given? artist).map fun text => ("upnp:artist", text)).toList ++
    [("upnp:class", (given? upnpclass).getD "object.container.storageFolder".toList)] ++
    ((given? description).map fun text => ("dc:description", text)).toList

structure XbmcPlugin (F : Type) where
  idprefix : Text
  routeplug : Plugin F
  entries : List Entry := []
  objid : Text := []

namespace XbmcPlugin

variable {F : Type} [DecidableEq F]

def isHttp (item : Item) : Bool := "http".toList.isPrefixOf item.id

/-- The URLs of the items, but not of those which have a URL for their id. -/
def urls_from_id (xbmc : XbmcPlugin F) (view_func : F) (items : List Item) : Option (List Text) :=
  (items.filter fun item => !isHttp item).mapM fun item =>
    xbmc.routeplug.url_for view_func [item.id] []

/-- The name of an item, with its format when this is not that of a CD. The bit depth is not read
when there is no sample rate. -/
def titleOf (item : Item) : Text :=
  let maxsamprate := item.maxsamprate.getD "44.1".toList
  let maxbitdepth := (item.maxsamprate.bind fun _ => item.maxbitdepth).getD "16".toList
  if maxsamprate ≠ "44.1".toList ∨ maxbitdepth ≠ "16".toList then
    item.name ++ " (".toList ++ maxbitdepth ++ '/' :: maxsamprate ++ [')']
  else item.name

def entryOf (xbmc : XbmcPlugin F) (item : Item) (url : Text) : Entry :=
  direntry (xbmc.idprefix ++ url) xbmc.objid (titleOf item) item.image item.artist item.upnpclass
    item.description

def view (xbmc : XbmcPlugin F) (data_items : List Item) (urls : List Text) : XbmcPlugin F :=
  { xbmc with
    entries := xbmc.entries ++ (data_items.zip urls).map fun (item, url) => xbmc.entryOf item url }

/-- What browsing an object id calls, or the exception. -/
def browse (xbmc : XbmcPlugin F) (refused : Text → Bool) (objid : Text) :
    Option (F × List (Text × Text)) :=
  if xbmc.idprefix.isPrefixOf objid then
    xbmc.routeplug.run refused (objid.drop xbmc.idprefix.length)
  else none

end XbmcPlugin

/-- Items which are kept stay at their places when those which are dropped come last. -/
theorem eq_of_pairwise {α : Type} {p : α → Bool} {items : List α}
    (last : items.Pairwise fun a b => p b = true → p a = true) {i : Nat} {a b : α}
    (there : items[i]? = some a) (there' : (items.filter p)[i]? = some b) : a = b := by
  induction items generalizing i with
  | nil => cases there
  | cons item rest ih =>
      rw [List.pairwise_cons] at last
      cases kept : p item with
      | true =>
          rw [List.filter_cons_of_pos kept] at there'
          cases i with
          | zero => exact (Option.some.inj there).symm.trans (Option.some.inj there')
          | succ i => exact ih last.2 there there'
      | false =>
          rw [List.filter_cons_of_neg (by simp [kept])] at there'
          obtain ⟨member, kept'⟩ := List.mem_filter.mp (List.mem_of_getElem? there')
          rw [last.1 b member kept'] at kept
          cases kept

/-- An item which is dropped leaves its place to another one which is kept behind it. -/
theorem pairwise_of_in_place {α : Type} {p : α → Bool} {items : List α}
    (places : ∀ (i : Nat) (a b : α), items[i]? = some a → (items.filter p)[i]? = some b →
      p a = true) : items.Pairwise fun a b => p b = true → p a = true := by
  induction items with
  | nil => exact List.Pairwise.nil
  | cons item rest ih =>
      rw [List.pairwise_cons]
      cases kept : p item with
      | true =>
          rw [List.filter_cons_of_pos kept] at places
          exact ⟨fun _ _ _ => rfl, ih fun i => places (i + 1)⟩
      | false =>
          rw [List.filter_cons_of_neg (by simp [kept])] at places
          have none_kept : ∀ b ∈ rest, ¬p b = true := by
            refine List.filter_eq_nil_iff.mp ?_
            cases shape : rest.filter p with
            | nil => rfl
            | cons b more =>
                rw [shape] at places
                rw [places 0 item b rfl rfl] at kept
                cases kept
          refine ⟨fun b member kept' => absurd kept' (none_kept b member), ?_⟩
          exact List.pairwise_of_forall_mem_list fun a _ b member kept' =>
            absurd kept' (none_kept b member)

namespace XbmcPlugin

variable {F : Type} [DecidableEq F] {xbmc : XbmcPlugin F}

omit [DecidableEq F] in
theorem getElem?_view (items : List Item) (urls : List Text) (i : Nat) :
    (xbmc.view items urls).entries[xbmc.entries.length + i]? =
      (items.zip urls)[i]?.map fun (item, url) => xbmc.entryOf item url := by
  rw [view, List.getElem?_append_right (Nat.le_add_right ..), Nat.add_sub_cancel_left,
    List.getElem?_map]

omit [DecidableEq F] in
theorem lookup_entryOf (item : Item) (url : Text) :
    (xbmc.entryOf item url).lookup "id" = some (xbmc.idprefix ++ url) := rfl

omit [DecidableEq F] in
theorem browse_prefixed (refused : Text → Bool) (url : Text) :
    xbmc.browse refused (xbmc.idprefix ++ url) = xbmc.routeplug.run refused url := by
  rw [browse, if_pos (List.isPrefixOf_iff_prefix.mpr (List.prefix_append _ _)), List.drop_left]

/-- The URLs leave out the items which have a URL for their id, and the entries are made of the
URLs and of all the items: each entry leads to its own item when no such item is before another
one. -/
theorem view_leads_home_iff (refused : Text → Bool) {func : F} {rule : UrlRule} {name : Text}
    {items : List Item} (base : xbmc.routeplug.base_url = [])
    (sole : xbmc.routeplug.rules.lookup func = some [rule])
    (apart : xbmc.routeplug.Apart func rule) (one : rule.keywords = [name])
    (clean : ∀ item ∈ items, isHttp item = false → Clean item.id) :
    ∃ urls, xbmc.urls_from_id func items = some urls ∧
      ((∀ i item entry, items[i]? = some item →
          (xbmc.view items urls).entries[xbmc.entries.length + i]? = some entry →
          ∃ id, entry.lookup "id" = some id ∧
            xbmc.browse refused id = some (func, [(name, item.id)])) ↔
        items.Pairwise fun a b => isHttp a = true → isHttp b = true) := by
  have call (item : Item) : rule.Called [item.id] [] := Or.inl ⟨rfl, by rw [one]; rfl⟩
  have bound (item : Item) : rule.bound [item.id] [] = [(name, item.id)] := by
    simp [UrlRule.bound, UrlRule.given, one]
  have leads (item : Item) (member : item ∈ items.filter fun item => !isHttp item) {url : Text}
      (url_for : xbmc.routeplug.url_for func [item.id] [] = some url) :
      xbmc.browse refused (xbmc.idprefix ++ url) = some (func, [(name, item.id)]) := by
    obtain ⟨there, kept⟩ := List.mem_filter.mp member
    rw [Plugin.url_for_eq base sole (call item), Option.some.injEq] at url_for
    have whole : ∀ value ∈ (rule.bound [item.id] []).map Prod.snd, Clean value := by
      simpa [bound item] using clean item there (by simpa using kept)
    rw [browse_prefixed, ← url_for, Plugin.run_of_clean refused sole apart whole, bound item]
  obtain ⟨urls, all⟩ := MapM.exists_eq_some (f := fun item : Item =>
    xbmc.routeplug.url_for func [item.id] []) (items.filter fun item => !isHttp item)
    fun item _ => by simp [Plugin.url_for_eq base sole (call item)]
  have turn {a b : Item} : ((!isHttp b) = true → (!isHttp a) = true) ↔
      (isHttp a = true → isHttp b = true) := by
    cases isHttp a <;> cases isHttp b <;> simp
  refine ⟨urls, all, ?_, ?_⟩
  · intro home
    have kept : items.Pairwise fun a b => (!isHttp b) = true → (!isHttp a) = true := by
      refine pairwise_of_in_place fun i a b there there' => ?_
      obtain ⟨inside, -⟩ := List.getElem?_eq_some_iff.mp there'
      obtain ⟨url, url_there⟩ : ∃ url, urls[i]? = some url :=
        ⟨_, List.getElem?_eq_getElem (MapM.length_of_eq_some all ▸ inside)⟩
      obtain ⟨b', same, url_for⟩ := MapM.getElem?_of_eq_some all url_there
      obtain rfl := Option.some.inj (there'.symm.trans same)
      have entry_there := xbmc.getElem?_view items urls i
      have zipped := (List.getElem?_zip_eq_some (z := (a, url))).mpr ⟨there, url_there⟩
      rw [zipped, Option.map_some] at entry_there
      obtain ⟨id, found, leads_a⟩ := home i a _ there entry_there
      obtain rfl := Option.some.inj found
      have leads_b := leads b (List.mem_of_getElem? there') url_for
      have same_id : a.id = b.id := by simpa using leads_a.symm.trans leads_b
      have not_http := (List.mem_filter.mp (List.mem_of_getElem? there')).2
      rwa [isHttp, same_id]
    exact kept.imp turn.mp
  · intro last i item entry there entry_there
    rw [getElem?_view] at entry_there
    obtain ⟨⟨item', url⟩, zipped, rfl⟩ := Option.map_eq_some_iff.mp entry_there
    obtain ⟨there', url_there⟩ := List.getElem?_zip_eq_some.mp zipped
    obtain rfl := Option.some.inj (there'.symm.trans there)
    obtain ⟨b, kept, url_for⟩ := MapM.getElem?_of_eq_some all url_there
    obtain rfl := eq_of_pairwise (last.imp turn.mpr) there kept
    exact ⟨_, lookup_entryOf item' url, leads item' (List.mem_of_getElem? kept) url_for⟩

end XbmcPlugin

def qobuzPlug : XbmcPlugin QobuzView where
  idprefix := "0$qobuz$".toList
  routeplug := qobuz

def albumRule : UrlRule := (UrlRule.ofPattern "/album/<album_id>".toList).get (by decide +kernel)

theorem albumRule_sole : qobuz.rules.lookup .album_view = some [albumRule] := by
  decide +kernel

/-- An album of the service before something which is elsewhere. -/
def albums : List Item :=
  [{ id := ['6', '0', '2'], name := ['A'] }, { id := "http://a/b".toList, name := ['B'] }]

theorem albums_clean : ∀ item ∈ albums, XbmcPlugin.isHttp item = false → Clean item.id := by
  intro item member service
  simp only [albums, List.mem_cons, List.not_mem_nil, or_false] at member
  rcases member with rfl | rfl
  · exact ⟨by decide, solid_of_word (by decide)⟩
  · exact absurd service (by decide +kernel)

theorem view_leads_home_albums :
    ∃ urls, qobuzPlug.urls_from_id .album_view albums = some urls ∧
      ((∀ i item entry, albums[i]? = some item →
          (qobuzPlug.view albums urls).entries[qobuzPlug.entries.length + i]? = some entry →
          ∃ id, entry.lookup "id" = some id ∧
            qobuzPlug.browse (fun _ => false) id =
              some (.album_view, [("album_id".toList, item.id)])) ↔
        albums.Pairwise fun a b => XbmcPlugin.isHttp a = true → XbmcPlugin.isHttp b = true) :=
  XbmcPlugin.view_leads_home_iff _ qobuz_base albumRule_sole
    (qobuz_apart _ (Dict.mem_of_lookup albumRule_sole) _ (List.mem_singleton.mpr rfl))
    (by decide +kernel) albums_clean

end Upmpdcli.Routing
