import Upmpdcli.Lib.Dict
import Upmpdcli.Lib.PageLoop
import Upmpdcli.Smallut

set_option autoImplicit false

/- The loops of the Subsonic plugin over the album lists of the server. -/
namespace Upmpdcli.Subsonic

def subsonic_max_return_size : Nat := 500

/-- What the loops read of an album. -/
structure Album where
  id : String
  genre : Option String := none
  artistId : Option String := none
  artist : String := ""
deriving DecidableEq

/-- The types of elements which the loops put into the cache. -/
inductive ElementType
  | tag
  | genre
  | genreArtistList
  | artist
deriving DecidableEq

def ElementType.getName : ElementType → String
  | tag => "tag"
  | genre => "gnr"
  | genreArtistList => "gnr_rtsts"
  | artist => "rtst"

/-- A dictionary for each type of element. -/
structure CacheManager where
  caches : List (String × List (Option String × String)) := []
deriving DecidableEq

namespace CacheManager

/-- The source makes an empty dictionary where there is none. -/
def get_element_cache (cm : CacheManager) (element_type : ElementType) :
    List (Option String × String) :=
  (cm.caches.lookup element_type.getName).getD []

def cache_element_value (cm : CacheManager) (element_type : ElementType) (key : Option String)
    (value : String) : CacheManager :=
  let cache := cm.get_element_cache element_type
  ⟨Dict.set cm.caches element_type.getName (Dict.set cache key value)⟩

def is_element_cached (cm : CacheManager) (element_type : ElementType) (key : Option String) :
    Bool :=
  ((cm.get_element_cache element_type).lookup key).isSome

def cacheIfNew (cm : CacheManager) (element_type : ElementType) (key : Option String)
    (value : String) : CacheManager :=
  if cm.is_element_cached element_type key then cm
  else cm.cache_element_value element_type key value

end CacheManager

/-- What `load_by_newest` keeps from one album to the next. -/
structure NewestState where
  first_processed : Bool := false
  cache : CacheManager
deriving DecidableEq

/-- The first album is the one for the genres and for the two lists of artists. -/
def NewestState.album (s : NewestState) (album : Album) : NewestState :=
  let cache :=
    if s.first_processed then s.cache
    else
      ((s.cache.cache_element_value .tag (some "g") album.id).cache_element_value
        .tag (some "a_all") album.id).cache_element_value .tag (some "a_ndx") album.id
  let cache := cache.cacheIfNew .genre album.genre album.id
  { first_processed := true, cache := cache.cacheIfNew .artist album.artistId album.id }

/-- `request` is the answer of the server for the albums from an offset, at most
`subsonic_max_return_size` of them. A failed answer ends the loop with an exception. -/
def load_by_newest (request : Nat → Option (List Album)) (cache : CacheManager) (fuel : Nat) :
    Option (PageLoop.Ended Album NewestState) :=
  PageLoop.run subsonic_max_return_size request (fun s page => page.foldl NewestState.album s)
    fuel { acc := { cache := cache } }

structure ArtistsState where
  artist_id_set : List (Option String) := []
  cache : CacheManager
deriving DecidableEq

/-- `cached` says whether an album of the page has been put into the cache. -/
def ArtistsState.album (genre : String) (turn : ArtistsState × Bool) (album : Album) :
    ArtistsState × Bool :=
  let (s, cached) := turn
  if album.artistId ∈ s.artist_id_set then turn
  else
    let artist_id_set := s.artist_id_set ++ [album.artistId]
    if cached then ({ s with artist_id_set := artist_id_set }, true)
    else ({ artist_id_set := artist_id_set,
            cache := s.cache.cache_element_value .genreArtistList (some genre) album.id }, true)

def ArtistsState.page (genre : String) (s : ArtistsState) (page : List Album) : ArtistsState :=
  (page.foldl (ArtistsState.album genre) (s, false)).1

/-- A failed answer ends the loop with the empty set. -/
def load_all_artists_by_genre (request : Nat → Option (List Album)) (genre : String)
    (cache : CacheManager) (fuel : Nat) : Option (PageLoop.Ended Album ArtistsState) :=
  PageLoop.run subsonic_max_return_size request (ArtistsState.page genre) fuel
    { acc := { cache := cache } }

/-- A failed answer ends the loop with an exception. -/
def get_album_list_by_artist_genre (request : Nat → Option (List Album)) (artist : String)
    (fuel : Nat) : Option (PageLoop.Ended Album (List Album)) :=
  PageLoop.run subsonic_max_return_size request
    (fun result page =>
      result ++ page.filter fun current_album => Smallut.contains current_album.artist artist)
    fuel { acc := [] }

/-- A list of albums on the server, and how many of them it gives from each offset. -/
structure AlbumServer where
  albums : List Album
  count : Nat → Nat
  atMost : ∀ offset, count offset ≤ subsonic_max_return_size

namespace AlbumServer

def request (server : AlbumServer) (offset : Nat) : Option (List Album) :=
  some (PageLoop.served server.albums server.count offset)

/-- Every page is full but the last one, which is not empty. -/
def EndsOpen (server : AlbumServer) : Prop :=
  PageLoop.EndsOpen server.albums server.count subsonic_max_return_size 0

/-- A server which gives as many albums as it is asked for. -/
def full (albums : List Album) : AlbumServer where
  albums := albums
  count := fun _ => subsonic_max_return_size
  atMost := fun _ => Nat.le_refl _

theorem length_served_le_size (server : AlbumServer) (offset : Nat) :
    (PageLoop.served server.albums server.count offset).length ≤ subsonic_max_return_size := by
  have atMost := server.atMost offset
  rw [PageLoop.served, List.length_take]
  omega

end AlbumServer

/-- The three loops end after having visited every album once, in the order of the server,
exactly when the last page is neither empty nor full. -/
theorem album_loops_visit_iff (server : AlbumServer) (cache : CacheManager)
    (genre artist : String) :
    (PageLoop.Visits (load_by_newest server.request cache) server.albums ↔ server.EndsOpen) ∧
      (PageLoop.Visits (load_all_artists_by_genre server.request genre cache) server.albums ↔
        server.EndsOpen) ∧
      (PageLoop.Visits (get_album_list_by_artist_genre server.request artist) server.albums ↔
        server.EndsOpen) := by
  refine ⟨?_, ?_, ?_⟩
  · apply PageLoop.visits_iff
    exact server.length_served_le_size
  · apply PageLoop.visits_iff
    exact server.length_served_le_size
  · apply PageLoop.visits_iff
    exact server.length_served_le_size

theorem full_endsOpen_iff (albums : List Album) :
    (AlbumServer.full albums).EndsOpen ↔ albums.length % subsonic_max_return_size ≠ 0 :=
  PageLoop.endsOpen_of_full_pages_iff (by decide)

/-- A multiple of the maximum, as no album at all, hangs the plugin. -/
theorem album_loops_endless {albums : List Album}
    (multiple : subsonic_max_return_size ∣ albums.length) (cache : CacheManager)
    (genre artist : String) (fuel : Nat) :
    load_by_newest (AlbumServer.full albums).request cache fuel = none ∧
      load_all_artists_by_genre (AlbumServer.full albums).request genre cache fuel = none ∧
      get_album_list_by_artist_genre (AlbumServer.full albums).request artist fuel = none := by
  have aligned : subsonic_max_return_size ∣ 0 := Nat.dvd_zero _
  refine ⟨?_, ?_, ?_⟩
  · exact PageLoop.run_eq_none ⟨rfl, Nat.zero_le _, List.take_zero.symm⟩ multiple aligned fuel
  · exact PageLoop.run_eq_none ⟨rfl, Nat.zero_le _, List.take_zero.symm⟩ multiple aligned fuel
  · exact PageLoop.run_eq_none ⟨rfl, Nat.zero_le _, List.take_zero.symm⟩ multiple aligned fuel

/-- The results are those of the albums visited, whatever the pages. -/
theorem load_by_newest_result {request : Nat → Option (List Album)} {cache : CacheManager}
    {fuel : Nat} {t : PageLoop.State Album NewestState}
    (ended : load_by_newest request cache fuel = some (.done t)) :
    t.acc = t.visited.foldl NewestState.album { cache := cache } :=
  PageLoop.acc_of_run id (fun _ _ => rfl) rfl ended

/-- A page adds the artists it has and the set has not. -/
theorem artist_id_set_page (genre : String) (turn : ArtistsState × Bool) (page : List Album) :
    (page.foldl (ArtistsState.album genre) turn).1.artist_id_set =
      page.foldl (fun ids album => if album.artistId ∈ ids then ids else ids ++ [album.artistId])
        turn.1.artist_id_set := by
  induction page generalizing turn with
  | nil => rfl
  | cons album rest ih =>
      have one : (ArtistsState.album genre turn album).1.artist_id_set =
          if album.artistId ∈ turn.1.artist_id_set then turn.1.artist_id_set
          else turn.1.artist_id_set ++ [album.artistId] := by
        unfold ArtistsState.album
        dsimp only
        split
        · rfl
        · split <;> rfl
      rw [List.foldl_cons, List.foldl_cons, ih, one]

theorem load_all_artists_by_genre_result {request : Nat → Option (List Album)} {genre : String}
    {cache : CacheManager} {fuel : Nat} {t : PageLoop.State Album ArtistsState}
    (ended : load_all_artists_by_genre request genre cache fuel = some (.done t)) :
    t.acc.artist_id_set =
      t.visited.foldl (fun ids album =>
        if album.artistId ∈ ids then ids else ids ++ [album.artistId]) [] := by
  apply PageLoop.acc_of_run ArtistsState.artist_id_set _ rfl ended
  intro s page
  apply artist_id_set_page

theorem append_filter_eq_foldl (p : Album → Bool) (result page : List Album) :
    result ++ page.filter p =
      page.foldl (fun result album => if p album then result ++ [album] else result) result := by
  induction page generalizing result with
  | nil => simp
  | cons album rest ih =>
      rw [List.foldl_cons, ← ih]
      cases taken : p album <;> simp [taken]

theorem get_album_list_by_artist_genre_result {request : Nat → Option (List Album)}
    {artist : String} {fuel : Nat} {t : PageLoop.State Album (List Album)}
    (ended : get_album_list_by_artist_genre request artist fuel = some (.done t)) :
    t.acc = t.visited.filter fun album => Smallut.contains album.artist artist := by
  rw [← List.nil_append (t.visited.filter _), append_filter_eq_foldl]
  apply PageLoop.acc_of_run id _ rfl ended
  intro result page
  apply append_filter_eq_foldl

/-- The server has no album: the loops ask for the first page again and again. -/
theorem no_album_not_visited :
    ¬ ∀ (server : AlbumServer) (cache : CacheManager) (genre artist : String),
      PageLoop.Visits (load_by_newest server.request cache) server.albums ∧
        PageLoop.Visits (load_all_artists_by_genre server.request genre cache) server.albums ∧
        PageLoop.Visits (get_album_list_by_artist_genre server.request artist) server.albums := by
  intro visits
  obtain ⟨fuel, t, ended, -⟩ := (visits (AlbumServer.full []) {} "" "").1
  rw [(album_loops_endless (Nat.dvd_zero _) {} "" "" fuel).1] at ended
  cases ended

end Upmpdcli.Subsonic
