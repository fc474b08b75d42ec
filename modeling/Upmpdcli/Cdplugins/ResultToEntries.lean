import Upmpdcli.UpSong

set_option autoImplicit false

namespace Upmpdcli

/-- `Json::Value`. A real carries the text `valueToString` gives for it. -/
inductive Json
  | null
  | bool (value : Bool)
  | int (value : Int)
  | real (text : String)
  | string (value : String)
  | array (values : List Json)
  | object (members : List (String × Json))

namespace Json

/-- `size()`, zero for everything which is not a container. -/
def size : Json → Nat
  | array values => values.length
  | object members => members.length
  | _ => 0

def isArray : Json → Bool
  | array _ => true
  | _ => false

/-- `get(key, "").asString()`, `none` where jsoncpp throws. -/
def getString (value : Json) (key : String) : Option String :=
  let found :=
    match value with
    | null => some (string "")
    | object members => some ((members.lookup key).getD (string ""))
    | _ => none
  match found with
  | some null => some ""
  | some (bool b) => some (if b then "true" else "false")
  | some (int n) => some (toString n)
  | some (real text) => some text
  | some (string s) => some s
  | _ => none

/-- `operator[](key)`, which throws on anything but an object or null. -/
def member (value : Json) (key : String) : Option Json :=
  match value with
  | null => some null
  | object members => some ((members.lookup key).getD null)
  | _ => none

end Json

/-- `catstring`. -/
def catstring (dest s2 : String) : String :=
  if s2 = "" then dest else if dest = "" then s2 else dest ++ " " ++ s2

/-- The numeric fields are left alone when the string is empty. -/
def decodeNumber (entry : Json) (key : String) (convert : String → Int) (field : Int) : Option Int :=
  (entry.getString key).map fun ss => if ss = "" then field else convert ss

open Smallut in
def decodeResource (entry : Json) (res : Res) : Option Res := do
  let uri ← entry.getString "uri"
  let mime ← entry.getString "res:mime"
  let duration_secs ← decodeNumber entry "duration" atoi res.duration_secs
  let size ← decodeNumber entry "res:size" atoll res.size
  let bitrate ← decodeNumber entry "res:bitrate" atoi res.bitrate
  let samplefreq ← decodeNumber entry "res:samplefreq" atoi res.samplefreq
  let bitsPerSample ← decodeNumber entry "res:bitsPerSample" atoi res.bitsPerSample
  let channels ← decodeNumber entry "res:channels" atoi res.channels
  some { uri, mime, duration_secs, size, bitrate, samplefreq, bitsPerSample, channels }

/-- `JSONTOUPS`: add a member to a field. -/
def jsonToUps (entry : Json) (nm field : String) : Option String :=
  (entry.getString nm).map (catstring field)

/-- The fields which containers and items share. -/
def decodeCommon (entry : Json) : Option UpSong := do
  let id ← jsonToUps entry "id" ""
  let parentid ← jsonToUps entry "pid" ""
  let title ← jsonToUps entry "tt" ""
  let artUri ← jsonToUps entry "upnp:albumArtURI" ""
  let artist ← jsonToUps entry "upnp:artist" ""
  let upnpClass ← jsonToUps entry "upnp:class" ""
  let dcdescription ← jsonToUps entry "dc:description" ""
  let date ← jsonToUps entry "dc:date" ""
  let date ← jsonToUps entry "releasedate" date
  let didlfrag ← entry.getString "didlfrag"
  some { id, parentid, title, artUri, artist, upnpClass, dcdescription, date, didlfrag }

def decodeContainer (entry : Json) (song : UpSong) : Option UpSong := do
  let ss ← entry.getString "searchable"
  some { song with
    iscontainer := true
    searchable := if ss = "" then song.searchable else Smallut.stringToBool ss }

def decodeItem (entry : Json) (song : UpSong) : Option UpSong := do
  let artist ← jsonToUps entry "dc:creator" song.artist
  let genre ← jsonToUps entry "upnp:genre" song.genre
  let album ← jsonToUps entry "upnp:album" song.album
  let tracknum ← jsonToUps entry "upnp:originalTrackNumber" song.tracknum
  let rsrc ← decodeResource entry song.rsrc
  let resources ←
    match ← entry.member "resources" with
    | .array values => values.mapM (decodeResource · {})
    | _ => some []
  some { song with
    iscontainer := false, artist, genre, album, tracknum, rsrc
    resources := song.resources ++ resources }

/-- One turn of the loop of `resultToEntries`. The outer `none` is an exception, the inner
one an entry which is not pushed. -/
def decodeEntry (classfilter : String) (entry : Json) : Option (Option UpSong) := do
  let song ← decodeCommon entry
  let stp ← entry.getString "tp"
  if stp = "ct" then
    let song ← decodeContainer entry song
    some (if Smallut.beginswith song.upnpClass classfilter then some song else none)
  else if stp = "it" then
    let song ← decodeItem entry song
    some (if Smallut.beginswith song.upnpClass classfilter then some song else none)
  else some none

/-- The entries pushed before the loop ends, and whether it ends normally. -/
def decodeEntries (classfilter : String) : List Json → List UpSong × Bool
  | [] => ([], true)
  | entry :: rest =>
      match decodeEntry classfilter entry with
      | none => ([], false)
      | some pushed =>
          let (entries, ended) := decodeEntries classfilter rest
          (pushed.toList ++ entries, ended)

/-- `resultToEntries` once the text is decoded. The number of values is the result, `none`
an exception; `decoded[i]` throws on an object. -/
def resultToEntries (decoded : Json) (classfilter : String := "") : List UpSong × Option Nat :=
  match decoded with
  | .array values =>
      let (entries, ended) := decodeEntries classfilter values
      (entries, if ended then some values.length else none)
  | .object (_ :: _) => ([], none)
  | _ => ([], some 0)

/-- Only the last test of the loop looks at the filter. -/
theorem decodeEntry_filter (classfilter : String) (entry : Json) :
    decodeEntry classfilter entry =
      (decodeEntry "" entry).map
        (Option.filter fun song => Smallut.beginswith song.upnpClass classfilter) := by
  simp only [decodeEntry, bind, Option.bind, Smallut.beginswith_empty, ↓reduceIte]
  cases decodeCommon entry with
  | none => rfl
  | some song =>
      cases entry.getString "tp" with
      | none => rfl
      | some stp =>
          dsimp only
          split
          · cases decodeContainer entry song with
            | none => rfl
            | some song => simp [Option.filter]
          · split
            · cases decodeItem entry song with
              | none => rfl
              | some song => simp [Option.filter]
            · rfl

/-- Filtering in the loop is filtering its result, and ends as the loop does without. -/
theorem decodeEntries_filter (classfilter : String) (values : List Json) :
    decodeEntries classfilter values =
      ((decodeEntries "" values).1.filter
        (fun song => Smallut.beginswith song.upnpClass classfilter),
        (decodeEntries "" values).2) := by
  induction values with
  | nil => rfl
  | cons entry rest ih =>
      rw [decodeEntries, decodeEntries, decodeEntry_filter, ih]
      cases decodeEntry "" entry with
      | none => rfl
      | some pushed =>
          cases pushed with
          | none => simp
          | some song =>
              simp only [Option.map_some, Option.filter, Option.toList_some,
                List.cons_append, List.nil_append, List.filter_cons]
              split <;> simp

theorem resultToEntries_filter (classfilter : String) (decoded : Json) :
    resultToEntries decoded classfilter =
      ((resultToEntries decoded).1.filter
        (fun song => Smallut.beginswith song.upnpClass classfilter),
        (resultToEntries decoded).2) := by
  cases decoded with
  | array values =>
      simp only [resultToEntries, decodeEntries_filter classfilter values]
  | object members => cases members <;> rfl
  | _ => rfl

end Upmpdcli
