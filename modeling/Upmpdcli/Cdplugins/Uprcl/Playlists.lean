import Upmpdcli.Cdplugins.Uprcl.Folders

set_option autoImplicit false

/- The playlists section of the tree, and how the ids of its entries lead back to them. -/
namespace Upmpdcli.Uprcl

/-- The flag of a browse request. -/
inductive Flag
  | children
  | metadata
deriving DecidableEq

/-- A radio of the configuration. A mime type which is not set is empty. -/
structure Radio where
  title : Str
  streamUri : Str
  artUri : Str
  mime : Str
deriving DecidableEq

/-- `radioToEntry`, when the entry has no id yet. -/
def radioToEntry (pid : Str) (index : Nat) (radio : Radio) : Entry :=
  let objid := if pid.getLast? = some '$' then pid else pid ++ "$".toList
  [("pid", pid), ("id", objid ++ "e".toList ++ Text.str index), ("uri", radio.streamUri),
    ("tp", "it".toList),
    ("res:mime", if radio.mime = [] then "audio/mpeg".toList else radio.mime),
    ("upnp:class", "object.item.audioItem.musicTrack".toList),
    ("upnp:albumArtURI", radio.artUri), ("tt", radio.title),
    ("upnp:artist", "Internet Radio".toList)]

def playlistsId : Str := "0$uprcl$playlists".toList

/-- The documents of the playlists, behind the -1 which stands for the root. -/
def pldocsidx (rcldocs : List Doc) : List Int :=
  -1 :: (rcldocs.zipIdx.filter fun doc => doc.1.get "mtype" = playlistType).map
    fun doc : Doc × Nat => (doc.2 : Int)

/-- The indexes in an id, behind the name of the section. -/
def idxsOfPath (path : Str) : Option (Int × Int) :=
  if path = [] then some (0, -1)
  else if path[1]? ≠ some 'p' then none
  else
    match Text.find "$e".toList path with
    | some epos =>
        (Text.int ((path.take epos).drop 2)).bind fun idx0 =>
          (Text.int (path.drop (epos + 2))).map fun idx1 => (idx0, idx1)
    | none => (Text.int (path.drop 2)).map fun idx0 => (idx0, -1)

structure Playlists where
  folders : Folders
  radios : List Radio

namespace Playlists

variable (p : Playlists)

def rcldocs : List Doc := p.folders.rcldocs

def pldocs : List Int := pldocsidx p.rcldocs

/-- The entries of the radios, whose list comes behind the playlists. -/
def radioEntries : List Entry :=
  p.radios.zipIdx.map fun radio =>
    radioToEntry (playlistsId ++ "$p".toList ++ Text.str p.pldocs.length) radio.2 radio.1

/-- `_objidtoidx`. -/
def objidtoidx (objid : Str) : Option (Int × Int) :=
  if playlistsId.isPrefixOf objid then
    (idxsOfPath (objid.drop playlistsId.length)).filter fun idxs => idxs.1 ≤ p.pldocs.length
  else none

/-- The document of a playlist, by the index of the playlist. -/
def pldoc (idx : Int) : Option Doc := do
  let i ← pyIndex p.pldocs.length idx
  let docidx ← p.pldocs[i]?
  let j ← pyIndex p.rcldocs.length docidx
  p.rcldocs[j]?

/-- `_idxtoentry`. The inner `none` is the answer when there is no such playlist. -/
def idxtoentry (idx : Int) : Option (Option Entry) :=
  let entry := fun title =>
    direntry (playlistsId ++ "$p".toList ++ Text.strInt idx) playlistsId title none [] []
      "object.container.playlistContainer".toList
  if idx = p.pldocs.length then some (some (entry "*Upmpdcli Radios*".toList))
  else if 1 ≤ idx ∧ idx < p.pldocs.length then
    (p.pldoc idx).map fun doc =>
      some (entry (if doc.get "title" = [] then doc.get "filename" else doc.get "title"))
  else some none

/-- The document of a line, if it is listed. -/
def lineDoc (env : Env) (plpath url : Bytes) : Option (Option Doc) :=
  if isUrl url then some (some (Folders.docforurl url))
  else
    (p.folders.statpath env plpath url).bind fun docidx =>
      match docidx with
      -- an index is tested for truth, and that of the first document is zero
      | some (docidx + 1) => (p.rcldocs[docidx + 1]?).map some
      | _ => some none

/-- One turn of the loop of `_playlistatidx`. -/
def listLine (env : Env) (plpath : Bytes) (pid : Str) (entries : List Entry) (url : Bytes) :
    Option (List Entry) :=
  (p.lineDoc env plpath url).bind fun doc =>
    match doc with
    | none => some entries
    | some doc =>
        (rcldoctoentry env (pid ++ "$e".toList ++ Text.str entries.length) pid doc).map fun e =>
          if e = [] then entries else entries ++ [e]

/-- `_playlistatidx`. -/
def playlistatidx (env : Env) (idx : Int) : Option (List Entry) := do
  let doc ← p.pldoc idx
  let plpath := docpath env doc
  match m3u env plpath with
  | none => some []
  | some lines =>
      lines.foldlM (p.listLine env plpath (playlistsId ++ "$p".toList ++ Text.strInt idx)) []

/-- `browse`. The metadata of the root are asked for with one argument too many. -/
def browse (env : Env) (pid : Str) (flag : Flag) : Option (List (Option Entry)) := do
  let (idx0, idx1) ← p.objidtoidx pid
  match flag with
  | .metadata =>
      if idx0 = 0 then none
      else if idx0 < p.pldocs.length then
        if idx1 = -1 then (p.idxtoentry idx0).map fun entry => [entry]
        else do
          let entries ← p.playlistatidx env idx0
          if 0 ≤ idx1 ∧ idx1 < entries.length then return [entries[idx1.toNat]?] else return []
      else if idx0 = p.pldocs.length then
        if idx1 = -1 then (p.idxtoentry idx0).map fun entry => [entry]
        else if 0 < idx1 ∧ idx1 < p.radioEntries.length then
          return [p.radioEntries[idx1.toNat]?]
        else return []
      else return []
  | .children =>
      if idx0 = 0 then do
        let entries ← (List.range p.pldocs.length).tail.mapM fun i : Nat => p.idxtoentry i
        let radios ← p.idxtoentry p.pldocs.length
        return entries ++ [radios]
      else if idx0 = p.pldocs.length then return p.radioEntries.map some
      else (p.playlistatidx env idx0).map fun entries => entries.map some

end Playlists

end Upmpdcli.Uprcl
