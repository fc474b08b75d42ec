import Upmpdcli.Bytes
import Upmpdcli.Lib.Dict
import Upmpdcli.Lib.PosixPath
import Upmpdcli.Lib.Text
import Upmpdcli.Lib.Utf8

set_option autoImplicit false

/- What the parts of the `uprcl` plugin share: the documents of the recoll index, and the
entries which a browse request is answered with. -/
namespace Upmpdcli.Uprcl

abbrev Str := List Char

scoped instance : LawfulBEq Str := inferInstance

/-- A recoll document. `binurl` is its address before it is made a text of. -/
structure Doc where
  fields : List (String × Str)
  binurl : Bytes := []
deriving DecidableEq

/-- A field which is not set is empty. -/
def Doc.get (doc : Doc) (field : String) : Str := (doc.fields.lookup field).getD []

/-- A document which is made for an address. -/
def Doc.ofUrl (url : Bytes) : Doc where
  fields := [("url", Utf8.decodeReplace url)]
  binurl := url

def Doc.set (doc : Doc) (field : String) (value : Str) : Doc :=
  { doc with fields := Dict.set doc.fields field value }

/-- What the plugin runs on: recoll with or without its store of results, the address of the
file server, and the file system with the images which it has for a track, for its group, and
for a folder with the title of an album in it. `firstOf` is the member of a set which comes
first. `stillShown` says which rows a running query shows after they have been changed so that
it does not select them any more. -/
structure Env where
  hasResultstore : Bool
  httphp : Str
  cwd : Bytes
  pathExists : Str → Bool
  readFile : Bytes → Option Bytes
  trackArt : Doc → Option Str
  groupArt : Doc → Option Str
  folderArt : Bytes → Str → Option Str
  firstOf : List Nat → Nat
  firstOf_mem : ∀ ids, ids ≠ [] → firstOf ids ∈ ids
  stillShown : Nat → Bool

def directoryType : Str := "inode/directory".toList

def playlistType : Str := "audio/x-mpegurl".toList

def audiomtypes : List Str :=
  ["audio/mpeg", "audio/flac", "application/flac", "audio/x-dsf", "audio/x-dff", "audio/x-aiff",
    "audio/x-flac", "application/x-flac", "application/ogg", "audio/aac", "audio/mp4",
    "video/mp4", "audio/x-aiff", "audio/x-musepack", "audio/ape", "audio/x-wav",
    "audio/x-wavpack", "inode/directory", "audio/x-mpegurl"].map String.toList

def upnp2rclfields : List (String × String) :=
  [("upnp:album", "album"), ("upnp:albumArtURI", "albumarturi"), ("upnp:artist", "artist"),
    ("dc:description", "comment"), ("composer", "composer"), ("conductor", "conductor"),
    ("dc:date", "date"), ("upnp:genre", "genre"), ("duration", "duration"),
    ("res:bitrate", "bitrate"), ("res:bitsPerSample", "bits_per_sample"),
    ("res:channels", "channels"), ("res:mime", "mtype"), ("res:samplefreq", "sample_rate"),
    ("res:size", "fbytes"), ("tt", "title"), ("dc:title", "title"),
    ("upnp:originalTrackNumber", "tracknumber")]

def hexDigit (c : UInt8) : Option UInt8 :=
  if 0x30 ≤ c ∧ c ≤ 0x39 then some (c - 0x30)
  else if 0x41 ≤ c ∧ c ≤ 0x46 then some (c - 0x37)
  else if 0x61 ≤ c ∧ c ≤ 0x66 then some (c - 0x57)
  else none

/-- `unquote_to_bytes` of the bytes of a text. -/
def urlunquotetobytes : Bytes → Bytes
  | 0x25 :: a :: b :: rest =>
      match hexDigit a, hexDigit b with
      | some high, some low => (16 * high + low) :: urlunquotetobytes rest
      | _, _ => 0x25 :: urlunquotetobytes (a :: b :: rest)
  | c :: rest => c :: urlunquotetobytes rest
  | [] => []

def hexChar (n : UInt8) : Char := Char.ofNat (n.toNat + if n < 10 then 0x30 else 0x37)

def urlquote (path : Bytes) : Str :=
  path.flatMap fun c =>
    let char := Char.ofNat c.toNat
    if char.isAlphanum ∨ "_.-~/".toList.contains char then [char]
    else ['%', hexChar (c / 16), hexChar (c % 16)]

/-- The file path of a document. A result store has encoded the address if it is no UTF-8. -/
def docpath (env : Env) (doc : Doc) : Bytes :=
  if env.hasResultstore then
    let p := (doc.get "url").drop 7
    if env.pathExists p then Utf8.encode p else urlunquotetobytes (Utf8.encode p)
  else doc.binurl.drop 7

/-- `none` is the error when the path has no last character. -/
def docfolder (env : Env) (doc : Doc) : Option Bytes :=
  let path := docpath env doc
  let path :=
    if doc.get "mtype" ≠ directoryType then PosixPath.dirname path else path
  path.getLast?.map fun last => if last = byte '/' then path else path ++ [byte '/']

/-- `dirname` of the last element which is not empty. -/
def dirname (path : Str) : Str :=
  if path.getLast? = some '/' ∧ path ≠ ['/'] then PosixPath.dirname path.dropLast
  else PosixPath.dirname path

def basename (path : Str) : Str :=
  if path.getLast? = some '/' ∧ path ≠ ['/'] then PosixPath.basename path.dropLast
  else PosixPath.basename path

/-- `docarturi`. The outer `none` is the error of `docfolder`. -/
def docarturi (env : Env) (doc : Doc) (preferfolder : Bool) (albtitle : Str := []) :
    Option (Option Str) :=
  let track := if preferfolder then none else env.trackArt doc
  match track.or (env.groupArt doc) with
  | some arturi => some (some arturi)
  | none =>
      (docfolder env doc).map fun folder =>
        (env.folderArt folder albtitle).or (if preferfolder then env.trackArt doc else none)

/-- An entry of an answer: a dictionary for `resultToEntries`. -/
abbrev Entry := List (String × Str)

def escape (text : Str) : Str :=
  text.flatMap fun c =>
    if c = '&' then "&amp;".toList
    else if c = '>' then "&gt;".toList
    else if c = '<' then "&lt;".toList
    else [c]

def didlfrag (doc : Doc) : Str :=
  (if doc.get "composer" = [] then []
    else "<upnp:artist role=\"Composer\">".toList ++ escape (doc.get "composer") ++
      "</upnp:artist>".toList) ++
  (if doc.get "conductor" = [] then []
    else "<upnp:artist role=\"Conductor\">".toList ++ escape (doc.get "conductor") ++
      "</upnp:artist>".toList)

def httpurl (env : Env) (path : Bytes) : Str :=
  "http://".toList ++ env.httphp ++ urlquote path

/-- The index behind the first two slashes, one if there are none. -/
def behindSlashes (path : Str) : Nat := ((Text.find "//".toList path).map (· + 2)).getD 1

/-- The address at which the file server, or the owner of the address, serves a document. -/
def docuri (env : Env) (doc : Doc) : Str :=
  let path := doc.get "url"
  if "file://".toList.isPrefixOf path then httpurl env (docpath env doc)
  else path.take (behindSlashes path) ++ urlquote (Utf8.encode (path.drop (behindSlashes path)))

/-- The fields which `upnp2rclfields` lists. -/
def copiedFields (doc : Doc) (entry : Entry) : Entry :=
  upnp2rclfields.foldl
    (fun entry names =>
      let val := doc.get names.2
      if val = [] then entry else Dict.set entry names.1 val)
    entry

def withClass (doc : Doc) (li : Entry) : Entry :=
  if doc.get "mtype" = directoryType then
    Dict.set (Dict.set li "tp" "ct".toList) "upnp:class" "object.container".toList
  else
    Dict.set (Dict.set li "tp" "it".toList) "upnp:class"
      "object.item.audioItem.musicTrack".toList

def withArt (env : Env) (doc : Doc) (li : Entry) : Option Entry :=
  if (li.lookup "upnp:albumArtURI").isSome then some li
  else
    (docarturi env doc false).map fun arturi =>
      match arturi with
      | some arturi => Dict.set li "upnp:albumArtURI" arturi
      | none => li

def withArtist (doc : Doc) (li : Entry) : Entry :=
  if (li.lookup "upnp:artist").isNone ∧ doc.get "albumartist" ≠ [] then
    Dict.set li "upnp:artist" (doc.get "albumartist")
  else li

def withDidlfrag (doc : Doc) (li : Entry) : Entry :=
  if didlfrag doc = [] then li else Dict.set li "didlfrag" (didlfrag doc)

def withTrackNumber (li : Entry) : Entry :=
  match li.lookup "upnp:originalTrackNumber" with
  | some val => Dict.set li "upnp:originalTrackNumber" (val.takeWhile (· ≠ '/'))
  | none => li

def withTitle (doc : Doc) (li : Entry) : Entry :=
  let path := doc.get "url"
  if (li.lookup "tt").isSome then li
  else Dict.set li "tt" (PosixPath.basename (path.drop (behindSlashes path)))

/-- What an entry has of its document, behind what is there already. -/
def fillEntry (env : Env) (doc : Doc) (li : Entry) : Option Entry :=
  (withArt env doc (copiedFields doc (withClass doc li))).map fun li =>
    withTitle doc
      (Dict.set (withTrackNumber (withDidlfrag doc (withArtist doc li))) "uri" (docuri env doc))

/-- `none` is the error of `docfolder`. -/
def rcldoctoentry (env : Env) (id pid : Str) (doc : Doc) : Option Entry :=
  if doc.get "mtype" ∉ audiomtypes then some []
  else fillEntry env doc [("pid", pid), ("id", id)]

/-- The fields which are filled in. -/
def entryKeys : List String :=
  ["tp", "upnp:class", "upnp:albumArtURI", "upnp:artist", "didlfrag", "upnp:originalTrackNumber",
    "uri", "tt"] ++ upnp2rclfields.map Prod.fst

theorem copiedFields_cons {entry : String × Str} (other : entry.1 ∉ entryKeys) (doc : Doc)
    (li : Entry) : copiedFields doc (entry :: li) = entry :: copiedFields doc li := by
  have kept : ∀ names : List (String × String), (∀ name ∈ names, entry.1 ≠ name.1) →
      ∀ li : Entry, names.foldl (fun (li : Entry) name =>
        let val := doc.get name.2
        if val = [] then li else Dict.set li name.1 val) (entry :: li) =
          entry :: names.foldl (fun (li : Entry) name =>
            let val := doc.get name.2
            if val = [] then li else Dict.set li name.1 val) li := by
    intro names
    induction names with
    | nil => exact fun _ _ => rfl
    | cons name rest ih =>
        intro differ li
        rw [List.foldl_cons, List.foldl_cons]
        have later := ih fun name inside => differ name (List.mem_cons_of_mem _ inside)
        dsimp only at later ⊢
        split
        · exact later li
        · rw [Dict.set_cons_of_ne (differ name List.mem_cons_self)]
          exact later _
  refine kept upnp2rclfields (fun name inside same => other ?_) li
  rw [entryKeys, List.mem_append, same]
  exact .inr (List.mem_map_of_mem inside)

/-- A field which is not filled in stays in front. -/
theorem fillEntry_cons {entry : String × Str} (other : entry.1 ∉ entryKeys) (env : Env) (doc : Doc)
    (li : Entry) : fillEntry env doc (entry :: li) = (fillEntry env doc li).map (entry :: ·) := by
  have differ : ∀ key ∈ entryKeys, entry.1 ≠ key := fun key inside same => other (same ▸ inside)
  have set_other : ∀ key ∈ entryKeys, ∀ (li : Entry) val,
      Dict.set (entry :: li) key val = entry :: Dict.set li key val :=
    fun key inside li val => Dict.set_cons_of_ne (differ key inside) li val
  have lookup_other : ∀ key ∈ entryKeys, ∀ li : Entry,
      (entry :: li).lookup key = li.lookup key :=
    fun key inside li => Dict.lookup_cons_of_ne (differ key inside) li
  have class_cons : ∀ li, withClass doc (entry :: li) = entry :: withClass doc li := by
    intro li
    unfold withClass
    split
    all_goals rw [set_other "tp" (by decide), set_other "upnp:class" (by decide)]
  have art_cons : ∀ li, withArt env doc (entry :: li) = (withArt env doc li).map (entry :: ·) := by
    intro li
    unfold withArt
    rw [lookup_other "upnp:albumArtURI" (by decide)]
    split
    · rfl
    · rw [Option.map_map]
      refine congrArg (fun change => Option.map change _) (funext fun arturi => ?_)
      cases arturi with
      | none => rfl
      | some arturi => exact set_other "upnp:albumArtURI" (by decide) li arturi
  have artist_cons : ∀ li, withArtist doc (entry :: li) = entry :: withArtist doc li := by
    intro li
    unfold withArtist
    rw [lookup_other "upnp:artist" (by decide)]
    split
    · rw [set_other "upnp:artist" (by decide)]
    · rfl
  have didlfrag_cons : ∀ li, withDidlfrag doc (entry :: li) = entry :: withDidlfrag doc li := by
    intro li
    unfold withDidlfrag
    split
    · rfl
    · rw [set_other "didlfrag" (by decide)]
  have number_cons : ∀ li, withTrackNumber (entry :: li) = entry :: withTrackNumber li := by
    intro li
    unfold withTrackNumber
    rw [lookup_other "upnp:originalTrackNumber" (by decide)]
    split
    · rw [set_other "upnp:originalTrackNumber" (by decide)]
    · rfl
  have title_cons : ∀ li, withTitle doc (entry :: li) = entry :: withTitle doc li := by
    intro li
    unfold withTitle
    rw [lookup_other "tt" (by decide)]
    dsimp only
    split
    · rfl
    · rw [set_other "tt" (by decide)]
  unfold fillEntry
  rw [class_cons, copiedFields_cons other, art_cons, Option.map_map, Option.map_map]
  refine congrArg (fun change => Option.map change _) (funext fun li => ?_)
  simp only [Function.comp_apply]
  rw [artist_cons, didlfrag_cons, number_cons, set_other "uri" (by decide), title_cons]

theorem rcldoctoentry_eq {env : Env} {id pid : Str} {doc : Doc}
    (audio : doc.get "mtype" ∈ audiomtypes) :
    rcldoctoentry env id pid doc =
      (fillEntry env doc []).map fun li => ("pid", pid) :: ("id", id) :: li := by
  have pid_other : "pid" ∉ entryKeys := by decide
  have id_other : "id" ∉ entryKeys := by decide
  rw [rcldoctoentry, if_neg (not_not_intro audio), fillEntry_cons pid_other,
    fillEntry_cons id_other, Option.map_map]
  rfl

theorem rcldoctoentry_ids {env : Env} {id pid : Str} {doc : Doc} {e : Entry}
    (made : rcldoctoentry env id pid doc = some e) (filled : e ≠ []) :
    e.lookup "id" = some id ∧ e.lookup "pid" = some pid := by
  by_cases audio : doc.get "mtype" ∈ audiomtypes
  · rw [rcldoctoentry_eq audio, Option.map_eq_some_iff] at made
    obtain ⟨li, -, rfl⟩ := made
    exact ⟨by simp [List.lookup_cons], by simp⟩
  · rw [rcldoctoentry, if_pos audio, Option.some.injEq] at made
    exact absurd made.symm filled

/-- A container entry. An empty optional field is left out. -/
def direntry (id pid title : Str) (arturi : Option Str := none) (artist date : Str := [])
    (upnpclass : Str := "object.container.storageFolder".toList) : Entry :=
  [("id", id), ("pid", pid), ("tt", title), ("tp", "ct".toList), ("searchable", "1".toList)] ++
    (if arturi.getD [] = [] then [] else [("upnp:albumArtURI", arturi.getD [])]) ++
    (if artist = [] then [] else [("upnp:artist", artist)]) ++
    (if date = [] then [] else [("dc:date", date)]) ++
    [("upnp:class", upnpclass)]

/-- The first bytes of a text which is marked as UTF-8. -/
def byteOrderMark : Bytes := [0xef, 0xbb, 0xbf]

/-- `M3u.urlRE`. -/
def isUrl (line : Bytes) : Bool :=
  let scheme := line.takeWhile fun c => (Char.ofNat c.toNat).isAlpha
  scheme ≠ [] && (bytes "://").isPrefixOf (line.drop scheme.length)

/-- The path which a line means, in the directory of the playlist. -/
def linePath (dn line : Bytes) : Bytes :=
  if PosixPath.isabs line then PosixPath.normpath line
  else PosixPath.normpath (PosixPath.join dn line)

def abspath (env : Env) (fn : Bytes) : Bytes :=
  PosixPath.normpath (if PosixPath.isabs fn then fn else PosixPath.join env.cwd fn)

/-- The lines of a playlist: its addresses as they are, and the paths which the others mean. -/
def m3uLines (env : Env) (fn data : Bytes) : List Bytes :=
  let data := if Utf8.valid data ∧ byteOrderMark.isPrefixOf data then data.drop 3 else data
  let dn := PosixPath.dirname (abspath env fn)
  (data.splitOn (byte '\n')).filterMap fun line =>
    let line := Strip.strip (fun c => c = byte ' ' ∨ c = byte '\r') line
    if line = [] ∨ line.head? = some (byte '#') then none
    else if isUrl line then some line
    else some (linePath dn line)

/-- `M3u`, with an error when the file cannot be read. -/
def m3u (env : Env) (fn : Bytes) : Option (List Bytes) := (env.readFile fn).map (m3uLines env fn)

/-- A machine with these files to read, without a store of results and without images. -/
def bareEnv (files : List (Bytes × Bytes)) : Env where
  hasResultstore := false
  httphp := "127.0.0.1:9090".toList
  cwd := bytes "/"
  pathExists _ := true
  readFile path := files.lookup path
  trackArt _ := none
  groupArt _ := none
  folderArt _ _ := none
  firstOf ids := ids.headD 0
  firstOf_mem ids some_id := by
    cases ids with
    | nil => exact absurd rfl some_id
    | cons first rest => exact List.mem_cons_self
  stillShown _ := false

/-- A document at this path. -/
def docAt (mtype path : String) (fields : List (String × String) := []) : Doc where
  fields := ("mtype", mtype.toList) :: ("url", "file://".toList ++ path.toList) ::
    fields.map fun field => (field.1, field.2.toList)
  binurl := bytes "file://" ++ bytes path

end Upmpdcli.Uprcl
