import Upmpdcli.Cdplugins.Subsonic.Identifier
import Upmpdcli.Lib.Walk

set_option autoImplicit false

/- The lists of the Subsonic plugin which are shown page by page. -/
namespace Upmpdcli.Subsonic.Pages

/-- What an item identifier holds under a key. -/
inductive Value
  | text (value : Str)
  | int (value : Nat)
  | bool (value : Bool)
deriving DecidableEq

/-- An item identifier, with all the kinds of values. -/
structure PageIdentifier where
  dict : List (ItemIdentifierKey × Value)
  distinct : (dict.map Prod.fst).Nodup

namespace PageIdentifier

/-- `set`, which refuses a key which is there. -/
def set (i : PageIdentifier) (key : ItemIdentifierKey) (value : Value) : Option PageIdentifier :=
  if free : key ∉ i.dict.map Prod.fst then
    some {
      dict := i.dict ++ [(key, value)]
      distinct := by
        rw [List.map_append, List.map_singleton, ← List.concat_eq_append]
        exact i.distinct.concat free }
  else none

/-- `ItemIdentifier(name, value)`. -/
def new (name value : Str) : Option PageIdentifier :=
  if name ≠ [] ∧ value ≠ [] then
    some {
      dict := [(.thingName, .text name), (.thingValue, .text value)]
      distinct := (by decide : [ItemIdentifierKey.thingName, .thingValue].Nodup) }
  else none

def get (i : PageIdentifier) (key : ItemIdentifierKey) : Option Value := i.dict.lookup key

def getText (i : PageIdentifier) (key : ItemIdentifierKey) : Option Str :=
  match i.get key with
  | some (.text value) => some value
  | _ => none

def getInt (i : PageIdentifier) (key : ItemIdentifierKey) : Option Nat :=
  match i.get key with
  | some (.int value) => some value
  | _ => none

/-- With the default for a key which is not there. -/
def getIntD (i : PageIdentifier) (key : ItemIdentifierKey) (default : Nat) : Option Nat :=
  if i.get key = none then some default else i.getInt key

def getBoolD (i : PageIdentifier) (key : ItemIdentifierKey) (default : Bool) : Option Bool :=
  match i.get key with
  | none => some default
  | some (.bool value) => some value
  | _ => none

end PageIdentifier

/-- The tags which show a list page by page, without the random ones. -/
inductive TagType
  | newest
  | recentlyPlayed
  | highestRated
  | favourites
  | mostPlayed
  | favouriteArtists
  | favouriteSongs
  | favouriteSongsList
deriving DecidableEq

def TagType.getTagName : TagType → Str
  | newest => "n".toList
  | recentlyPlayed => "rp".toList
  | highestRated => "hr".toList
  | favourites => "fav".toList
  | mostPlayed => "mp".toList
  | favouriteArtists => "fav_rtsts".toList
  | favouriteSongs => "fs".toList
  | favouriteSongsList => "fsl".toList

def TagType.getQueryType : TagType → Option Str
  | newest => some "newest".toList
  | recentlyPlayed => some "recent".toList
  | highestRated => some "highest".toList
  | favourites => some "starred".toList
  | mostPlayed => some "frequent".toList
  | favouriteArtists => some "starred".toList
  | favouriteSongs => none
  | favouriteSongsList => none

/-- The elements which are containers of pages, and the kinds of the entries on them. -/
inductive ElementType
  | tag
  | album
  | artist
  | genreAlbumList
  | songEntryNavigable
  | songEntryTheSong
  | navigableAlbum
  | artistAlbums
  | genreArtistAlbums
deriving DecidableEq

def ElementType.getName : ElementType → Str
  | tag => "tag".toList
  | album => "lbm".toList
  | artist => "rtst".toList
  | genreAlbumList => "gnr_lbus".toList
  | songEntryNavigable => "sngntr_n".toList
  | songEntryTheSong => "sngntr_s".toList
  | navigableAlbum => "sprs_lbm".toList
  | artistAlbums => "rtst_lbms".toList
  | genreArtistAlbums => "gnr_rtst_lbms".toList

/-- An entry of a page: an element of the list, or a container of its own. -/
inductive Entry
  | element (type : ElementType) (id : Str)
  | node (title : String) (identifier : PageIdentifier)

abbrev Page := List Entry

structure Config where
  items_per_page : Nat
  positive : 0 < items_per_page
  disable_navigable_album : Bool

/-- The lists, as the server has them, with the ids of their elements. -/
structure Library where
  /-- The albums of an artist. -/
  artist_albums : (artist_id : Str) → List Str
  /-- What `get_album_list_by_artist_genre` finds. -/
  genre_artist_albums : (artist_id genre : Str) → List Str
  starred_songs : List Str
  starred_artists : List Str
  /-- The albums of a type. -/
  albums : (query_type : Option Str) → List Str
  genre_albums : (genre : Str) → List Str

/-- `list[start:stop]`. -/
def slice (list : List Str) (start stop : Nat) : List Str := (list.take stop).drop start

/-- The albums which the server gives: from an offset, as many as are asked for. -/
def request (list : List Str) (offset size : Nat) : List Str := (list.drop offset).take size

section Handlers

variable (config : Config) (library : Library) (item_identifier : PageIdentifier)

/-- The pages of a list which is cut where it is, as three handlers do. -/
def slicedPage (list : List Str) (offset : Nat) (type : ElementType)
    (next_identifier : Nat → Option PageIdentifier) : Option Page := do
  let need_next := list ≠ [] ∧ list.length > offset + config.items_per_page
  let entries := (slice list offset (min list.length (offset + config.items_per_page))).map
    (Entry.element type)
  if need_next then
    let next_identifier ← next_identifier (offset + config.items_per_page)
    some (entries ++ [.node "Next" next_identifier])
  else some entries

def handler_element_artist_albums : Option Page := do
  let artist_id ← item_identifier.getText .thingValue
  let offset ← item_identifier.getIntD .offset 0
  let album_list := library.artist_albums artist_id
  let next_needed := album_list.length > config.items_per_page + offset
  let num_albums_to_show :=
    if next_needed ∨ album_list.length = config.items_per_page then config.items_per_page
    else album_list.length % config.items_per_page
  if num_albums_to_show > 0 then
    let entries := (slice album_list offset (offset + num_albums_to_show)).map
      (Entry.element .album)
    if next_needed then
      let next_identifier ← PageIdentifier.new ElementType.artistAlbums.getName artist_id
      let next_identifier ← next_identifier.set .offset (.int (offset + config.items_per_page))
      some (entries ++ [.node "Next" next_identifier])
    else some entries
  else some []

/-- The identifier of the next page of the albums of an artist in a genre. -/
def genreArtistIdentifier (artist_id genre_name : Str) (offset : Nat) : Option PageIdentifier := do
  let next_identifier ← PageIdentifier.new ElementType.genreArtistAlbums.getName artist_id
  let next_identifier ← next_identifier.set .offset (.int offset)
  next_identifier.set .genreName (.text genre_name)

def handler_element_genre_artist_albums : Option Page := do
  let artist_id ← item_identifier.getText .thingValue
  let offset ← item_identifier.getIntD .offset 0
  let genre_name ← item_identifier.getText .genreName
  slicedPage config (library.genre_artist_albums artist_id genre_name) offset .album
    (genreArtistIdentifier artist_id genre_name)

/-- The identifier of the next page of a tag, as three handlers make it. -/
def tagIdentifier (tag : TagType) (offset : Nat) : Option PageIdentifier := do
  let identifier ← PageIdentifier.new ElementType.tag.getName tag.getTagName
  identifier.set .offset (.int offset)

def get_favourite_songs : Option Page := do
  let song_as_entry ← item_identifier.getBoolD .songAsEntry true
  let offset ← item_identifier.getIntD .offset 0
  slicedPage config library.starred_songs offset
    (if song_as_entry then .songEntryNavigable else .songEntryTheSong)
    (tagIdentifier .favouriteSongsList)

def handler_tag_favourite_songs : Option Page := do
  get_favourite_songs config library (← item_identifier.set .songAsEntry (.bool true))

def handler_tag_favourite_songs_list : Option Page := do
  get_favourite_songs config library (← item_identifier.set .songAsEntry (.bool false))

def handler_tag_artists_favourite : Option Page := do
  let offset ← item_identifier.getIntD .offset 0
  slicedPage config library.starred_artists offset .artist (tagIdentifier .favouriteArtists)

def genre_add_albums_node (offset : Nat) (entries : Page) : Option Page := do
  let genre ← item_identifier.getText .thingValue
  let identifier ← PageIdentifier.new ElementType.genreAlbumList.getName genre
  let identifier ← identifier.set .genreName (.text genre)
  let identifier ← identifier.set .offset (.int offset)
  some (entries ++ [.node (if offset = 0 then "Albums" else "Next") identifier])

def handler_element_genre_album_list : Option Page := do
  let genre ← item_identifier.getText .genreName
  let offset ← item_identifier.getInt .offset
  let album_list := request (library.genre_albums genre) offset config.items_per_page
  let entries := album_list.map (Entry.element .album)
  if album_list.length = config.items_per_page then
    genre_add_albums_node item_identifier (offset + config.items_per_page) entries
  else some entries

/-- `__handler_tag_type`, with the albums which `_load_albums_by_type` loads. -/
def handler_tag_type (tag_type : TagType) : Option Page := do
  let offset ← item_identifier.getIntD .offset 0
  let album_list := request (library.albums tag_type.getQueryType) offset config.items_per_page
  let entries := album_list.map
    (Entry.element (if config.disable_navigable_album then .album else .navigableAlbum))
  if entries.length = config.items_per_page then
    let identifier ← tagIdentifier tag_type (offset + entries.length)
    some (entries ++ [.node "Next" identifier])
  else some entries

/-- `__tag_action_dict`. -/
def tag_action_dict : List (Str × (PageIdentifier → Option Page)) :=
  [(TagType.newest.getTagName, fun i => handler_tag_type config library i .newest),
    (TagType.recentlyPlayed.getTagName, fun i => handler_tag_type config library i .recentlyPlayed),
    (TagType.highestRated.getTagName, fun i => handler_tag_type config library i .highestRated),
    (TagType.mostPlayed.getTagName, fun i => handler_tag_type config library i .mostPlayed),
    (TagType.favourites.getTagName, fun i => handler_tag_type config library i .favourites),
    (TagType.favouriteArtists.getTagName, handler_tag_artists_favourite config library),
    (TagType.favouriteSongs.getTagName, handler_tag_favourite_songs config library),
    (TagType.favouriteSongsList.getTagName, handler_tag_favourite_songs_list config library)]

/-- `__elem_action_dict`. -/
def elem_action_dict : List (Str × (PageIdentifier → Option Page)) :=
  [(ElementType.genreAlbumList.getName, handler_element_genre_album_list config library),
    (ElementType.genreArtistAlbums.getName, handler_element_genre_artist_albums config library),
    (ElementType.artistAlbums.getName, handler_element_artist_albums config library)]

/-- The handler of a thing. -/
def handler (thing_name thing_value : Str) : Option (PageIdentifier → Option Page) :=
  if ElementType.tag.getName = thing_name then (tag_action_dict config library).lookup thing_value
  else (elem_action_dict config library).lookup thing_name

/-- `browse`, from the identifier which the object id holds. The entries of other handlers are
left out. -/
def browse : Option Page := do
  let thing_name ← item_identifier.getText .thingName
  let thing_value ← item_identifier.getText .thingValue
  let handler ← handler config library thing_name thing_value
  handler item_identifier

end Handlers

/-- The lists which are shown page by page. -/
inductive PagedList
  | artist_albums (artist_id : Str) (some_id : artist_id ≠ [])
  | genre_artist_albums (artist_id genre : Str) (some_id : artist_id ≠ [])
  | genre_albums (genre : Str) (some_genre : genre ≠ [])
  | tag (tag : TagType)

namespace PagedList

/-- The elements. -/
def whole (library : Library) : PagedList → List Str
  | artist_albums artist_id _ => library.artist_albums artist_id
  | genre_artist_albums artist_id genre _ => library.genre_artist_albums artist_id genre
  | genre_albums genre _ => library.genre_albums genre
  | tag .favouriteArtists => library.starred_artists
  | tag .favouriteSongs => library.starred_songs
  | tag .favouriteSongsList => library.starred_songs
  | tag tag_type => library.albums tag_type.getQueryType

/-- The identifier of the first page, as the container which leads to it has it. -/
def first : PagedList → Option PageIdentifier
  | artist_albums artist_id _ => PageIdentifier.new ElementType.artistAlbums.getName artist_id
  | genre_artist_albums artist_id genre _ => do
      let identifier ← PageIdentifier.new ElementType.genreArtistAlbums.getName artist_id
      identifier.set .genreName (.text genre)
  | genre_albums genre _ => do
      let identifier ← PageIdentifier.new ElementType.genreAlbumList.getName genre
      let identifier ← identifier.set .genreName (.text genre)
      identifier.set .offset (.int 0)
  | tag tag_type => PageIdentifier.new ElementType.tag.getName tag_type.getTagName

end PagedList

/-- The identifier of the entry `Next`. -/
def next (page : Page) : Option PageIdentifier :=
  page.findSome? fun
    | .node "Next" identifier => some identifier
    | _ => none

/-- The elements on a page, with how they are shown. -/
def elements (page : Page) : List (ElementType × Str) :=
  page.filterMap fun
    | .element type id => some (type, id)
    | _ => none

/-- The pages of a list show its elements once, in order and all as the same kind of entry. -/
def ShowsOnce (config : Config) (library : Library) (list : PagedList) : Prop :=
  ∃ i pages type, list.first = some i ∧ Walk.Follows (browse config library) next i pages ∧
    (∀ page ∈ pages, (elements page).length ≤ config.items_per_page) ∧
    pages.flatMap elements = (list.whole library).map fun id => (type, id)

/-- The albums of an artist do not fill several pages exactly, and the favourite songs are no more
than a page. -/
def FitsPages (config : Config) (library : Library) : PagedList → Prop
  | .artist_albums artist_id _ =>
      (library.artist_albums artist_id).length ≤ config.items_per_page ∨
        ¬ config.items_per_page ∣ (library.artist_albums artist_id).length
  | .tag .favouriteSongs => library.starred_songs.length ≤ config.items_per_page
  | _ => True

section Pages

variable {type : ElementType} {ids : List Str} {identifier : PageIdentifier}

theorem elements_map : elements (ids.map (Entry.element type)) = ids.map fun id => (type, id) := by
  induction ids with
  | nil => rfl
  | cons id rest ih => exact congrArg ((type, id) :: ·) ih

theorem next_map : next (ids.map (Entry.element type)) = none := by
  induction ids with
  | nil => rfl
  | cons id rest ih => exact ih

theorem elements_map_next : elements (ids.map (Entry.element type) ++ [.node "Next" identifier]) =
    ids.map fun id => (type, id) := by
  induction ids with
  | nil => rfl
  | cons id rest ih => exact congrArg ((type, id) :: ·) ih

theorem next_map_next : next (ids.map (Entry.element type) ++ [.node "Next" identifier]) =
    some identifier := by
  induction ids with
  | nil => rfl
  | cons id rest ih => exact ih

end Pages

section Cut

variable (size : Nat) (type : ElementType) (list : List Str) (start : Nat → PageIdentifier)

/-- The page at an offset: what is left of the list, or with more behind it as much as a page
takes. -/
def cut (more : Nat → Prop) [DecidablePred more] (offset : Nat) : Page :=
  if more offset then
    ((list.drop offset).take size).map (Entry.element type) ++
      [.node "Next" (start (offset + size))]
  else (list.drop offset).map (Entry.element type)

variable (more : Nat → Prop) [DecidablePred more] {serve : PageIdentifier → Option Page}

theorem slices_cut
    (served : ∀ offset ≤ list.length, size ∣ offset →
      serve (start offset) = some (cut size type list start more offset))
    (fits : ∀ offset, more offset → offset + size ≤ list.length)
    (short : ∀ offset ≤ list.length, ¬ more offset → list.length ≤ offset + size) :
    Walk.Slices serve next start (cut size type list start more) elements
      (list.map fun id => (type, id)) size where
  served offset inside aligned := by
    rw [List.length_map] at inside
    exact served offset inside aligned
  each offset inside aligned := by
    rw [List.length_map] at inside ⊢
    unfold cut
    split
    · rename_i behind
      refine .inr ⟨next_map_next, fits offset behind, ?_⟩
      rw [elements_map_next, List.map_take, List.map_drop]
    · rename_i last
      refine .inl ⟨next_map, short offset inside last, ?_⟩
      rw [elements_map, List.map_drop]

variable {size type list start more}

/-- `slicedPage` cuts the page from the list. -/
theorem slicedPage_eq {config : Config} {offset : Nat}
    {next_identifier : Nat → Option PageIdentifier}
    (made : next_identifier (offset + config.items_per_page) =
      some (start (offset + config.items_per_page))) :
    slicedPage config list offset type next_identifier =
      some (cut config.items_per_page type list start
        (fun offset => list.length > offset + config.items_per_page) offset) := by
  unfold slicedPage cut
  by_cases behind : list.length > offset + config.items_per_page
  · have filled : list ≠ [] := List.ne_nil_of_length_pos (by omega)
    have stop : min list.length (offset + config.items_per_page) =
        offset + config.items_per_page := by omega
    rw [made, if_pos behind, stop]
    refine (if_pos ⟨filled, behind⟩).trans ?_
    unfold slice
    rw [List.drop_take, Nat.add_sub_cancel_left]
    rfl
  · have stop : min list.length (offset + config.items_per_page) = list.length := by omega
    rw [if_neg behind, stop]
    refine (if_neg fun both => behind both.2).trans ?_
    unfold slice
    rw [List.take_length]

/-- A full page of the server leads to another one. -/
theorem request_eq {offset : Nat} (entries : Page)
    (same : entries = (request list offset size).map (Entry.element type)) :
    (if (request list offset size).length = size then
        entries ++ [.node "Next" (start (offset + size))]
      else entries) =
      cut size type list start (fun offset => (request list offset size).length = size) offset := by
  unfold cut
  rw [same]
  split
  · rfl
  · rename_i not_full
    have rest : request list offset size = list.drop offset := by
      unfold request at not_full ⊢
      rw [List.length_take, List.length_drop] at not_full
      apply List.take_of_length_le
      rw [List.length_drop]
      omega
    rw [rest]

variable (type start more)

/-- A list whose pages are cut like this is shown. -/
theorem showsOnce_of_cut {config : Config} {library : Library} {paged : PagedList}
    (first : paged.first = some (start 0))
    (served : ∀ offset ≤ (paged.whole library).length, config.items_per_page ∣ offset →
      browse config library (start offset) =
        some (cut config.items_per_page type (paged.whole library) start more offset))
    (fits : ∀ offset, more offset → offset + config.items_per_page ≤ (paged.whole library).length)
    (short : ∀ offset ≤ (paged.whole library).length, ¬ more offset →
      (paged.whole library).length ≤ offset + config.items_per_page) :
    ShowsOnce config library paged := by
  obtain ⟨pages, follows, shown, small⟩ :=
    (slices_cut _ _ _ _ _ served fits short).follows config.positive 0 (Nat.zero_le _)
      (Nat.dvd_zero _)
  exact ⟨start 0, pages, type, first, follows, small, by rw [shown, List.drop_zero]⟩

/-- A list of which `slicedPage` makes the pages. -/
theorem slices_of_slicedPage {config : Config} {serve : PageIdentifier → Option Page}
    {next_identifier : Nat → Option PageIdentifier}
    (served : ∀ offset, serve (start offset) =
      slicedPage config list offset type next_identifier)
    (made : ∀ offset, 0 < offset → next_identifier offset = some (start offset)) :
    Walk.Slices serve next start (cut config.items_per_page type list start
      fun offset => list.length > offset + config.items_per_page) elements
      (list.map fun id => (type, id)) config.items_per_page := by
  have positive := config.positive
  apply slices_cut
  · intro offset _ _
    exact (served offset).trans (slicedPage_eq (made _ (by omega)))
  · intro offset behind
    omega
  · intro offset _ last
    omega

theorem showsOnce_of_slicedPage {config : Config} {library : Library} {paged : PagedList}
    {next_identifier : Nat → Option PageIdentifier} (first : paged.first = some (start 0))
    (served : ∀ offset, browse config library (start offset) =
      slicedPage config (paged.whole library) offset type next_identifier)
    (made : ∀ offset, 0 < offset → next_identifier offset = some (start offset)) :
    ShowsOnce config library paged := by
  obtain ⟨pages, follows, shown, small⟩ := (slices_of_slicedPage type start served made).follows
    config.positive 0 (Nat.zero_le _) (Nat.dvd_zero _)
  exact ⟨start 0, pages, type, first, follows, small, by rw [shown, List.drop_zero]⟩

/-- A list which the server gives page by page. -/
theorem showsOnce_of_request {config : Config} {library : Library} {paged : PagedList}
    (first : paged.first = some (start 0))
    (served : ∀ offset, browse config library (start offset) =
      some (if (request (paged.whole library) offset config.items_per_page).length =
          config.items_per_page then
        (request (paged.whole library) offset config.items_per_page).map (Entry.element type) ++
          [.node "Next" (start (offset + config.items_per_page))]
      else (request (paged.whole library) offset config.items_per_page).map
        (Entry.element type))) : ShowsOnce config library paged := by
  have positive := config.positive
  have length : ∀ offset, (request (paged.whole library) offset config.items_per_page).length =
      min config.items_per_page ((paged.whole library).length - offset) := by
    intro offset
    rw [request, List.length_take, List.length_drop]
  apply showsOnce_of_cut type start
    (fun offset => (request (paged.whole library) offset config.items_per_page).length =
      config.items_per_page) first
  · intro offset _ _
    exact (served offset).trans (congrArg some (request_eq _ rfl))
  · intro offset full
    rw [length] at full
    omega
  · intro offset inside last
    rw [length] at last
    omega

end Cut

section Identifiers

variable (name value genre : Str) (offset : Nat)

/-- The identifier of a thing alone. -/
def plain : PageIdentifier where
  dict := [(.thingName, .text name), (.thingValue, .text value)]
  distinct := (by decide : [ItemIdentifierKey.thingName, .thingValue].Nodup)

/-- A thing and the offset of a page. -/
def withOffset : PageIdentifier where
  dict := [(.thingName, .text name), (.thingValue, .text value), (.offset, .int offset)]
  distinct := (by decide : [ItemIdentifierKey.thingName, .thingValue, .offset].Nodup)

/-- The identifiers of the pages, of which only the first one has no offset. -/
def pageStart : PageIdentifier :=
  if offset = 0 then plain name value else withOffset name value offset

variable {name value} in
theorem new_eq (filled : name ≠ [] ∧ value ≠ []) :
    PageIdentifier.new name value = some (plain name value) := if_pos filled

variable {name value} in
theorem set_offset_plain :
    (plain name value).set .offset (.int offset) = some (withOffset name value offset) :=
  dif_pos (by decide : ItemIdentifierKey.offset ∉ [ItemIdentifierKey.thingName, .thingValue])

theorem getText_pageStart : (pageStart name value offset).getText .thingName = some name ∧
    (pageStart name value offset).getText .thingValue = some value := by
  unfold pageStart
  split
  · exact ⟨rfl, rfl⟩
  · exact ⟨rfl, rfl⟩

theorem getIntD_pageStart : (pageStart name value offset).getIntD .offset 0 = some offset := by
  unfold pageStart
  split
  · rename_i zero
    rw [zero]
    rfl
  · rfl

variable {name value}

theorem pageStart_of_pos {offset : Nat} (positive : 0 < offset) :
    pageStart name value offset = withOffset name value offset :=
  if_neg (Nat.ne_of_gt positive)

theorem tagIdentifier_eq {tag : TagType} {offset : Nat} (positive : 0 < offset) :
    tagIdentifier tag offset =
      some (pageStart ElementType.tag.getName tag.getTagName offset) := by
  have filled : ElementType.tag.getName ≠ [] ∧ tag.getTagName ≠ [] := by
    cases tag <;> decide
  unfold tagIdentifier
  rw [new_eq filled, pageStart_of_pos positive]
  exact set_offset_plain offset

end Identifiers

section Lists

variable (config : Config) (library : Library)

theorem browse_eq {i : PageIdentifier} {thing_name thing_value : Str}
    {handles : PageIdentifier → Option Page} (name : i.getText .thingName = some thing_name)
    (value : i.getText .thingValue = some thing_value)
    (handled : handler config library thing_name thing_value = some handles) :
    browse config library i = handles i := by
  unfold browse
  rw [name, value]
  dsimp only [bind, Option.bind_some]
  rw [handled]
  rfl

theorem browse_tag (tag : TagType) {handles : PageIdentifier → Option Page}
    (handled : (tag_action_dict config library).lookup tag.getTagName = some handles)
    (offset : Nat) :
    browse config library (pageStart ElementType.tag.getName tag.getTagName offset) =
      handles (pageStart ElementType.tag.getName tag.getTagName offset) := by
  obtain ⟨name, value⟩ := getText_pageStart ElementType.tag.getName tag.getTagName offset
  exact browse_eq config library name value handled

theorem favouriteArtists_showsOnce : ShowsOnce config library (.tag .favouriteArtists) := by
  apply showsOnce_of_slicedPage .artist
    (pageStart ElementType.tag.getName TagType.favouriteArtists.getTagName) rfl
  · intro offset
    rw [browse_tag config library _ rfl]
    unfold handler_tag_artists_favourite
    rw [getIntD_pageStart]
    rfl
  · intro offset positive
    exact tagIdentifier_eq positive

/-- The songs as entries of their own kind, from any page of the list on. -/
theorem browse_favouriteSongsList (offset : Nat) :
    browse config library
        (pageStart ElementType.tag.getName TagType.favouriteSongsList.getTagName offset) =
      slicedPage config library.starred_songs offset .songEntryTheSong
        (tagIdentifier .favouriteSongsList) := by
  rw [browse_tag config library _ rfl]
  unfold handler_tag_favourite_songs_list pageStart
  split
  · rename_i zero
    rw [zero]
    rfl
  · rfl

theorem favouriteSongsList_showsOnce : ShowsOnce config library (.tag .favouriteSongsList) := by
  apply showsOnce_of_slicedPage .songEntryTheSong
    (pageStart ElementType.tag.getName TagType.favouriteSongsList.getTagName) rfl
  · exact browse_favouriteSongsList config library
  · intro offset positive
    exact tagIdentifier_eq positive

/-- The tags of albums, which one handler serves. -/
theorem albums_showsOnce {tag : TagType} (whole : (PagedList.tag tag).whole library =
      library.albums tag.getQueryType)
    (handled : (tag_action_dict config library).lookup tag.getTagName =
      some fun i => handler_tag_type config library i tag) :
    ShowsOnce config library (.tag tag) := by
  have filled : ElementType.tag.getName ≠ [] ∧ tag.getTagName ≠ [] := by
    cases tag <;> decide
  have first : (PagedList.tag tag).first =
      some (pageStart ElementType.tag.getName tag.getTagName 0) := new_eq filled
  apply showsOnce_of_request
    (if config.disable_navigable_album then .album else .navigableAlbum)
    (pageStart ElementType.tag.getName tag.getTagName) first
  intro offset
  have positive := config.positive
  rw [browse_tag config library tag handled, whole]
  unfold handler_tag_type
  rw [getIntD_pageStart]
  dsimp only [bind, Option.bind_some]
  rw [List.length_map]
  split
  · rename_i full
    rw [full, tagIdentifier_eq (by omega)]
    rfl
  · rfl

/-- The identifiers of the pages of the albums of an artist in a genre. -/
def genreArtistStart (artist_id genre : Str) (offset : Nat) : PageIdentifier :=
  if offset = 0 then
    { dict := [(.thingName, .text ElementType.genreArtistAlbums.getName),
        (.thingValue, .text artist_id), (.genreName, .text genre)]
      distinct := (by decide : [ItemIdentifierKey.thingName, .thingValue, .genreName].Nodup) }
  else
    { dict := [(.thingName, .text ElementType.genreArtistAlbums.getName),
        (.thingValue, .text artist_id), (.offset, .int offset), (.genreName, .text genre)]
      distinct :=
        (by decide : [ItemIdentifierKey.thingName, .thingValue, .offset, .genreName].Nodup) }

theorem genreArtistAlbums_showsOnce (artist_id genre : Str) (some_id : artist_id ≠ []) :
    ShowsOnce config library (.genre_artist_albums artist_id genre some_id) := by
  have filled : ElementType.genreArtistAlbums.getName ≠ [] ∧ artist_id ≠ [] :=
    ⟨by decide, some_id⟩
  have first : (PagedList.genre_artist_albums artist_id genre some_id).first =
      some (genreArtistStart artist_id genre 0) := by
    unfold PagedList.first
    dsimp only
    rw [new_eq filled]
    rfl
  apply showsOnce_of_slicedPage .album (genreArtistStart artist_id genre) first
  · intro offset
    have read : (genreArtistStart artist_id genre offset).getText .thingName =
          some ElementType.genreArtistAlbums.getName ∧
        (genreArtistStart artist_id genre offset).getText .thingValue = some artist_id ∧
        (genreArtistStart artist_id genre offset).getText .genreName = some genre ∧
        (genreArtistStart artist_id genre offset).getIntD .offset 0 = some offset := by
      unfold genreArtistStart
      split
      · rename_i zero
        rw [zero]
        exact ⟨rfl, rfl, rfl, rfl⟩
      · exact ⟨rfl, rfl, rfl, rfl⟩
    obtain ⟨name, value, genre_name, at_offset⟩ := read
    rw [browse_eq config library name value rfl]
    unfold handler_element_genre_artist_albums
    rw [value, at_offset, genre_name]
    rfl
  · intro offset positive
    unfold genreArtistIdentifier
    rw [new_eq filled, genreArtistStart, if_neg (Nat.ne_of_gt positive)]
    rfl

/-- The identifiers of the pages of the albums of a genre. -/
def genreStart (genre : Str) (offset : Nat) : PageIdentifier where
  dict := [(.thingName, .text ElementType.genreAlbumList.getName), (.thingValue, .text genre),
    (.genreName, .text genre), (.offset, .int offset)]
  distinct := (by decide : [ItemIdentifierKey.thingName, .thingValue, .genreName, .offset].Nodup)

theorem genreAlbums_showsOnce (genre : Str) (some_genre : genre ≠ []) :
    ShowsOnce config library (.genre_albums genre some_genre) := by
  have filled : ElementType.genreAlbumList.getName ≠ [] ∧ genre ≠ [] := ⟨by decide, some_genre⟩
  have positive := config.positive
  have whole : (PagedList.genre_albums genre some_genre).whole library =
      library.genre_albums genre := rfl
  have first : (PagedList.genre_albums genre some_genre).first = some (genreStart genre 0) := by
    unfold PagedList.first
    dsimp only
    rw [new_eq filled]
    rfl
  apply showsOnce_of_request .album (genreStart genre) first
  intro offset
  have name : (genreStart genre offset).getText .thingName =
      some ElementType.genreAlbumList.getName := rfl
  have value : (genreStart genre offset).getText .thingValue = some genre := rfl
  rw [browse_eq config library name value rfl, whole]
  unfold handler_element_genre_album_list
  have genre_name : (genreStart genre offset).getText .genreName = some genre := rfl
  have at_offset : (genreStart genre offset).getInt .offset = some offset := rfl
  rw [genre_name, at_offset]
  dsimp only [bind, Option.bind_some]
  split
  · rename_i full
    have later : offset + config.items_per_page ≠ 0 := by omega
    unfold genre_add_albums_node
    rw [value, if_neg later]
    dsimp only [bind, Option.bind_some]
    rw [new_eq filled]
    rfl
  · rfl

/-- What is left at the start of the last page, when that is not a whole page. -/
theorem rest_eq_mod {total size offset : Nat} (aligned : size ∣ offset) (inside : offset ≤ total)
    (last : total < offset + size) : total - offset = total % size := by
  obtain ⟨pages, rfl⟩ := aligned
  obtain ⟨rest, rfl⟩ := Nat.exists_eq_add_of_le inside
  rw [Nat.add_sub_cancel_left, Nat.mul_add_mod, Nat.mod_eq_of_lt (by omega)]

/-- There are whole pages between two starts of pages. -/
theorem whole_page_between {first second size : Nat} (aligned : size ∣ first)
    (aligned' : size ∣ second) (less : first < second) : first + size ≤ second := by
  have between : size ≤ second - first :=
    Nat.le_of_dvd (by omega) (Nat.dvd_sub aligned' aligned)
  omega

section Artist

variable {config library} {artist_id : Str} (some_id : artist_id ≠ [])
include some_id

/-- The page of the albums of an artist at an offset. -/
theorem browse_artist (offset : Nat) :
    browse config library (pageStart ElementType.artistAlbums.getName artist_id offset) =
      let album_list := library.artist_albums artist_id
      let next_needed := album_list.length > config.items_per_page + offset
      let num_albums_to_show :=
        if next_needed ∨ album_list.length = config.items_per_page then config.items_per_page
        else album_list.length % config.items_per_page
      if num_albums_to_show > 0 then
        let entries := (slice album_list offset (offset + num_albums_to_show)).map
          (Entry.element .album)
        if next_needed then
          some (entries ++ [.node "Next" (pageStart ElementType.artistAlbums.getName artist_id
            (offset + config.items_per_page))])
        else some entries
      else some [] := by
  have positive := config.positive
  have filled : ElementType.artistAlbums.getName ≠ [] ∧ artist_id ≠ [] := ⟨by decide, some_id⟩
  have later : 0 < offset + config.items_per_page := by omega
  obtain ⟨name, value⟩ := getText_pageStart ElementType.artistAlbums.getName artist_id offset
  rw [browse_eq config library name value rfl]
  unfold handler_element_artist_albums
  rw [value, getIntD_pageStart, pageStart_of_pos later]
  dsimp only [bind, Option.bind_some]
  rw [new_eq filled]
  dsimp only [Option.bind_some]
  rw [set_offset_plain]
  rfl

section

variable {albums : List Str} (is_albums : library.artist_albums artist_id = albums)
include is_albums

/-- A page with albums behind it. -/
theorem browse_artist_more {offset : Nat}
    (behind : albums.length > config.items_per_page + offset) :
    browse config library (pageStart ElementType.artistAlbums.getName artist_id offset) =
      some (((albums.drop offset).take config.items_per_page).map (Entry.element .album) ++
        [.node "Next" (pageStart ElementType.artistAlbums.getName artist_id
          (offset + config.items_per_page))]) := by
  rw [browse_artist some_id, is_albums]
  dsimp only
  rw [if_pos (Or.inl behind), if_pos config.positive, if_pos behind, slice, List.drop_take,
    Nat.add_sub_cancel_left]

/-- The last page. -/
theorem browse_artist_last {offset : Nat}
    (last : ¬ albums.length > config.items_per_page + offset) :
    browse config library (pageStart ElementType.artistAlbums.getName artist_id offset) =
      some (if albums.length = config.items_per_page then
        (albums.drop offset).map (Entry.element .album)
      else ((albums.drop offset).take (albums.length % config.items_per_page)).map
        (Entry.element .album)) := by
  rw [browse_artist some_id, is_albums]
  dsimp only
  by_cases single : albums.length = config.items_per_page
  · rw [if_pos (Or.inr single), if_pos config.positive, if_neg last, if_pos single, slice,
      List.take_of_length_le (by omega)]
  · rw [if_neg (not_or.mpr ⟨last, single⟩), if_neg single, if_neg last, slice, List.drop_take,
      Nat.add_sub_cancel_left]
    by_cases some_left : albums.length % config.items_per_page > 0
    · rw [if_pos some_left]
    · rw [if_neg some_left, Nat.eq_zero_of_not_pos some_left]
      rfl

end

theorem artistAlbums_first :
    (PagedList.artist_albums artist_id some_id).first =
      some (pageStart ElementType.artistAlbums.getName artist_id 0) := new_eq ⟨by decide, some_id⟩

/-- The albums of an artist are shown when they do not fill several pages. -/
theorem artistAlbums_showsOnce
    (fits : FitsPages config library (.artist_albums artist_id some_id)) :
    ShowsOnce config library (.artist_albums artist_id some_id) := by
  have whole : (PagedList.artist_albums artist_id some_id).whole library =
      library.artist_albums artist_id := rfl
  have fits : (library.artist_albums artist_id).length ≤ config.items_per_page ∨
      ¬ config.items_per_page ∣ (library.artist_albums artist_id).length := fits
  generalize is_albums : library.artist_albums artist_id = albums at fits whole
  apply showsOnce_of_cut .album (pageStart ElementType.artistAlbums.getName artist_id)
    (fun offset => albums.length > config.items_per_page + offset) (artistAlbums_first some_id)
  · rw [whole]
    intro offset inside aligned
    unfold cut
    split
    · rename_i behind
      exact browse_artist_more some_id is_albums behind
    · rename_i last
      rw [browse_artist_last some_id is_albums last]
      split
      · rfl
      · rename_i not_single
        have short : albums.length < offset + config.items_per_page := by
          by_contra whole_page
          have full : albums.length = offset + config.items_per_page := by omega
          rcases fits with single | broken
          · exact not_single (by omega)
          · exact broken (full ▸ Nat.dvd_add aligned (Nat.dvd_refl _))
        rw [← rest_eq_mod aligned inside short, ← List.length_drop, List.take_length]
  · rw [whole]
    intro offset behind
    omega
  · rw [whole]
    intro offset inside last
    omega

/-- The last page of albums which fill several pages is empty. -/
theorem artistAlbums_not_showsOnce
    (full : ¬ FitsPages config library (.artist_albums artist_id some_id)) :
    ¬ ShowsOnce config library (.artist_albums artist_id some_id) := by
  have positive := config.positive
  have whole : (PagedList.artist_albums artist_id some_id).whole library =
      library.artist_albums artist_id := rfl
  obtain ⟨several, multiple⟩ := not_or.mp full
  rw [not_not] at multiple
  generalize is_albums : library.artist_albums artist_id = albums at several multiple whole
  -- the pages before the last one
  have length : (albums.take (albums.length - config.items_per_page)).length =
      albums.length - config.items_per_page := by
    rw [List.length_take]
    omega
  have start_last : config.items_per_page ∣ albums.length - config.items_per_page :=
    Nat.dvd_sub multiple (Nat.dvd_refl _)
  have nothing : albums.length % config.items_per_page = 0 := Nat.mod_eq_zero_of_dvd multiple
  have slices : Walk.Slices (browse config library) next _ _ elements _ config.items_per_page :=
    slices_cut config.items_per_page .album
      (albums.take (albums.length - config.items_per_page))
      (pageStart ElementType.artistAlbums.getName artist_id)
      (fun offset => offset + config.items_per_page ≤ albums.length - config.items_per_page) (by
        rw [length]
        intro offset inside aligned
        unfold cut
        split
        · rename_i behind
          rw [browse_artist_more some_id is_albums (by omega), List.drop_take, List.take_take,
            Nat.min_eq_left (by omega)]
        · rename_i last
          have here : offset = albums.length - config.items_per_page := by
            by_contra before
            exact last (whole_page_between aligned start_last (by omega))
          rw [browse_artist_last some_id is_albums (by omega), if_neg (by omega), nothing, here,
            List.drop_of_length_le (Nat.le_of_eq length)]
          rfl) (by
        rw [length]
        exact fun _ behind => behind) (by
        rw [length]
        omega)
  obtain ⟨pages, follows, shown, -⟩ :=
    slices.follows positive 0 (Nat.zero_le _) (Nat.dvd_zero _)
  rintro ⟨i, pages', type, first, follows', -, shown'⟩
  obtain rfl := Option.some.inj ((artistAlbums_first some_id).symm.trans first)
  rw [follows'.unique follows, shown, List.drop_zero, whole] at shown'
  have lengths := congrArg List.length shown'
  rw [List.length_map, List.length_map, length] at lengths
  omega

end Artist

/-- The favourite songs are shown when they are no more than a page. The next pages are those of
the other list of them. -/
theorem favouriteSongs_showsOnce_iff :
    ShowsOnce config library (.tag .favouriteSongs) ↔
      library.starred_songs.length ≤ config.items_per_page := by
  have positive := config.positive
  have first : (PagedList.tag .favouriteSongs).first =
      some (plain ElementType.tag.getName TagType.favouriteSongs.getTagName) := rfl
  have whole : (PagedList.tag .favouriteSongs).whole library = library.starred_songs := rfl
  have made : ∀ offset, 0 < offset → tagIdentifier .favouriteSongsList offset =
      some (pageStart ElementType.tag.getName TagType.favouriteSongsList.getTagName offset) :=
    fun _ later => tagIdentifier_eq later
  have served : browse config library
      (plain ElementType.tag.getName TagType.favouriteSongs.getTagName) =
      slicedPage config library.starred_songs 0 .songEntryNavigable
        (tagIdentifier .favouriteSongsList) :=
    (browse_tag config library .favouriteSongs rfl 0).trans rfl
  have slices := slices_of_slicedPage .songEntryTheSong _ (browse_favouriteSongsList config library)
    made
  rw [slicedPage_eq (made _ (by omega))] at served
  unfold cut at served
  generalize library.starred_songs = songs at served whole slices
  rw [List.drop_zero, Nat.zero_add] at served
  constructor
  · rintro ⟨i, pages, type, is_first, follows, -, shown⟩
    by_contra several
    rw [if_pos (by omega)] at served
    obtain rfl := Option.some.inj (first.symm.trans is_first)
    obtain ⟨rest, later, shown_later, -⟩ :=
      slices.follows positive config.items_per_page (by rw [List.length_map]; omega)
        (Nat.dvd_refl _)
    obtain rfl := follows.unique (.more served next_map_next later)
    rw [List.flatMap_cons, elements_map_next, shown_later, whole, ← List.map_drop] at shown
    have entry_type : ∀ other id, (other, id) ∈ songs.map (fun id => (type, id)) →
        type = other := by
      intro other id member
      obtain ⟨_, -, same⟩ := List.mem_map.mp member
      exact (Prod.mk.inj same).1
    obtain ⟨song, of_first⟩ := List.exists_mem_of_length_pos
      (l := songs.take config.items_per_page) (by rw [List.length_take]; omega)
    obtain ⟨song', of_rest⟩ := List.exists_mem_of_length_pos
      (l := songs.drop config.items_per_page) (by rw [List.length_drop]; omega)
    have navigable := entry_type .songEntryNavigable song
      (shown ▸ List.mem_append_left _ (List.mem_map_of_mem of_first))
    have the_song := entry_type .songEntryTheSong song'
      (shown ▸ List.mem_append_right _ (List.mem_map_of_mem of_rest))
    cases navigable.symm.trans the_song
  · intro single
    rw [if_neg (by omega)] at served
    refine ⟨_, _, .songEntryNavigable, first, .last served next_map, ?_, ?_⟩
    · intro page member
      rw [List.mem_singleton.mp member, elements_map, List.length_map]
      exact single
    · rw [List.flatMap_singleton, elements_map, whole]

end Lists

/-- A library with two albums of an artist. -/
def twoAlbums : Library where
  artist_albums _ := ["1".toList, "2".toList]
  genre_artist_albums _ _ := []
  starred_songs := []
  starred_artists := []
  albums _ := []
  genre_albums _ := []

end Upmpdcli.Subsonic.Pages
