import Upmpdcli.Cdplugins.Subsonic.Identifier
import Upmpdcli.Lib.Dict
import Upmpdcli.Lib.PosixPath
import Upmpdcli.Lib.Text

set_option autoImplicit false

/- The songs of an album, put in order and told apart by their directories. -/
namespace Upmpdcli.Subsonic.AlbumUtil

/-- What the server says about a song. -/
structure Song where
  id : Str
  path : Str
  suffix : Str := []
  artist : Option Str := none
  album : Option Str := none
  discNumber : Option Int := none
  track : Option Int := none
deriving DecidableEq

/-- An album of the server. -/
structure Album where
  id : Str
  songs : List Song
  some_id : id ≠ []

/-- The names of `Starter`. -/
def starters : List Str :=
  ["CD".toList, "DISC".toList, "DISCO".toList, "DISK".toList, "D".toList]

/-- `__is_int`. -/
def isInt (value : Str) : Bool := (Text.int value).isSome

/-- `split_string` at the split characters. -/
def splitString (string : Str) : List Str := string.splitOnP fun c => c = ' ' || c = '-' || c = '_'

section Paths

-- `str.upper`
variable (upper : Str → Str)

/-- `_ignorable`: a starter with a number behind it, right there or behind a splitter. -/
def ignorable (last_path : Str) : Bool :=
  (starters.any fun name =>
    name.isPrefixOf (upper last_path) && (last_path[name.length]?).any fun c => isInt [c]) ||
  starters.any fun name =>
    name.isPrefixOf (upper last_path) && ((splitString last_path)[1]?).any isInt

def get_dir_from_path (path : Str) : Str := PosixPath.dirname path

/-- The first part of `os.path.split` is the directory name. -/
def get_album_base_path (path : Str) : Str :=
  let last_path := PosixPath.basename (PosixPath.normpath path)
  if ignorable upper last_path then PosixPath.dirname path else path

/-- `__Decorated_Song`. The numbers and the names which are missing count as 0 and empty. -/
structure DecoratedSong where
  song : Song
  path : Str
  disc : Int
  track : Int

def decorate (song : Song) : DecoratedSong where
  song := song
  path := get_album_base_path upper (get_dir_from_path song.path)
  disc := song.discNumber.getD 0
  track := song.track.getD 0

end Paths

/-- One line of `__compare_decorated_song`. -/
def compareBy {α : Type} [LT α] [DecidableEq α] [DecidableLT α] (left right : α) : Int :=
  if left < right then -1 else if left = right then 0 else 1

def compare_decorated_song (left right : DecoratedSong) : Int :=
  let cmp := compareBy (left.song.artist.getD []) (right.song.artist.getD [])
  let cmp := if cmp = 0 then compareBy (left.song.album.getD []) (right.song.album.getD []) else cmp
  let cmp := if cmp = 0 then compareBy left.path right.path else cmp
  let cmp := if cmp = 0 then compareBy left.disc right.disc else cmp
  if cmp = 0 then compareBy left.track right.track else cmp

/-- `AlbumTracks`, with what the sorting of the songs gives. -/
structure AlbumTracks where
  album : Album
  codec_set_by_path : List (Str × List Str)
  song_list : List Song

def AlbumTracks.getAlbumVersionCount (tracks : AlbumTracks) : Nat := tracks.codec_set_by_path.length

/-- One turn of the loop of `sort_song_list`, for the codecs. -/
def addCodec (codec_set_by_path : List (Str × List Str)) (dec : DecoratedSong) :
    List (Str × List Str) :=
  Dict.set codec_set_by_path dec.path
    (((codec_set_by_path.lookup dec.path).getD []).insert dec.song.suffix)

variable (upper : Str → Str)

/-- `sort_song_list`: the codecs of each path, and the sorted songs. -/
def sort_song_list (song_list : List Song) : List (Str × List Str) × List Song :=
  let dec_list := song_list.map (decorate upper)
  (dec_list.foldl addCodec [],
    (dec_list.mergeSort fun left right => compare_decorated_song left right ≤ 0).map
      DecoratedSong.song)

variable (server : Str → Option Album)

def get_album_tracks (album_id : Str) : Option AlbumTracks := do
  let album ← server album_id
  let (codec_set_by_path, song_list) := sort_song_list upper album.songs
  some { album, codec_set_by_path, song_list }

/-- What is shown of an album: a version of it, or a song with its number in the version. -/
inductive Entry
  | version (identifier : ItemIdentifier) (version_number : Nat) (codec_set : List Str)
  | track (song : Song) (track_num : Nat)

/-- `album_version_to_entry`. -/
def album_version_to_entry (current_album : Album) (version_number : Nat)
    (album_version_path : Str) (codec_set : List Str) : Option Entry := do
  let identifier ← ItemIdentifier.new "lbm".toList current_album.id
  let identifier ← identifier.set .albumVersionPathBase64 (encode album_version_path)
  some (.version identifier version_number codec_set)

/-- The loop of `_load_album_tracks`. An empty base path is taken for none. -/
def loadTracks (album_version_path : Option Str) :
    (current_base_path : Str) → (track_num : Nat) → List Song → List Entry
  | _, _, [] => []
  | current_base_path, track_num, current_song :: rest =>
      let song_path := get_album_base_path upper (get_dir_from_path current_song.path)
      if album_version_path.all (· = song_path) then
        let track_num :=
          if current_base_path = [] then 1
          else if current_base_path = song_path then track_num + 1
          else 1
        .track current_song track_num :: loadTracks album_version_path song_path track_num rest
      else loadTracks album_version_path current_base_path track_num rest

def load_album_tracks (album_id : Str) (album_version_path : Option Str) : Option (List Entry) := do
  let album_tracks ← get_album_tracks upper server album_id
  some (loadTracks upper album_version_path [] 0 album_tracks.song_list)

/-- `_present_album`. -/
def present_album (item_identifier : ItemIdentifier) : Option (List Entry) := do
  let album_id ← item_identifier.get .thingValue
  match item_identifier.get .albumVersionPathBase64 with
  | some avp_encoded =>
      let album_version_path ← decode avp_encoded
      load_album_tracks upper server album_id (some album_version_path)
  | none => load_album_tracks upper server album_id none

/-- The path in an identifier, when it is not empty. The outer `none` is an exception. -/
def versionPath (item_identifier : ItemIdentifier) : Option (Option Str) :=
  match item_identifier.get .albumVersionPathBase64 with
  | some (c :: rest) => (decode (c :: rest)).map some
  | _ => some none

/-- `_handler_element_album`. -/
def handler_element_album (item_identifier : ItemIdentifier) : Option (List Entry) := do
  let album_id ← item_identifier.get .thingValue
  let album_version_path ← versionPath item_identifier
  if album_version_path = none ∨ album_version_path = some [] then
    let album_tracks ← get_album_tracks upper server album_id
    if album_tracks.getAlbumVersionCount > 1 then
      album_tracks.codec_set_by_path.zipIdx.mapM fun ((album_version_path, codec_set), n) =>
        album_version_to_entry album_tracks.album (n + 1) album_version_path codec_set
    else present_album upper server item_identifier
  else present_album upper server item_identifier

end Upmpdcli.Subsonic.AlbumUtil
