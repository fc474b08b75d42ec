import Upmpdcli.Cdplugins.Uprcl.Utils

set_option autoImplicit false

/- The tree of the folders, which is built out of the addresses of the documents. -/
namespace Upmpdcli.Uprcl

/-- A key of a directory. The names of the lines of a playlist are bytes. -/
inductive Name
  | text (nm : Str)
  | bytes (nm : Bytes)
deriving DecidableEq

/-- An index into the directories, and one into the documents. Either can be -1. -/
abbrev Ids := Int × Int

abbrev Dir := List (Name × Ids)

/-- The entry for the father. -/
def dotdot : Name := .text "..".toList

/-- The entry for the directory itself. -/
def dot : Name := .text ".".toList

/-- The index of a list, which counts from the end if it is negative. -/
def pyIndex (length : Nat) (idx : Int) : Option Nat :=
  if 0 ≤ idx then (if idx < length then some idx.toNat else none)
  else if -(length : Int) ≤ idx then some (length + idx).toNat
  else none

structure Folders where
  rcldocs : List Doc
  dirvec : List Dir := []
  playlists : List Nat := []
  moredocs : List Doc := []

namespace Folders

def dirAt (t : Folders) (idx : Int) : Option Dir :=
  (pyIndex t.dirvec.length idx).bind fun i => t.dirvec[i]?

def setEntry (t : Folders) (idx : Int) (nm : Name) (ids : Ids) : Option Folders :=
  (pyIndex t.dirvec.length idx).map fun i =>
    { t with dirvec := t.dirvec.modify i fun dir => Dict.set dir nm ids }

/-- `_createdir`, with the index of the new directory. -/
def createdir (t : Folders) (fathidx docidx : Int) (nm : Name) : Option (Folders × Int) := do
  let t := { t with dirvec := t.dirvec ++ [[]] }
  let thisidx : Int := t.dirvec.length - 1
  let t ← t.setEntry fathidx nm (thisidx, docidx)
  let t ← t.setEntry (-1) dotdot (fathidx, -1)
  let t ← t.setEntry (-1) dot (thisidx, docidx)
  return (t, thisidx)

/-- `_createpldir`. -/
def createpldir (t : Folders) (fathidx docidx : Int) (nm : Name) : Option (Folders × Int) := do
  let (t, myidx) ← t.createdir fathidx docidx nm
  let t ← t.setEntry myidx dot (myidx, docidx)
  return ({ t with playlists := t.playlists ++ [myidx.toNat] }, myidx)

/-- The first entry of the root whose name begins the path. All of its names are texts. -/
def rootEntry (root : Dir) (url : Str) : Option (Str × Int) :=
  root.findSome? fun entry =>
    match entry with
    | (.text rtpath, ids) => if rtpath.isPrefixOf url then some (rtpath, ids.1) else none
    | (.bytes _, _) => none

/-- The elements of a path below its top directory, with the group as a directory. -/
def pathElements (group url1 : Str) : List Str :=
  let url1 :=
    if group = [] then url1
    else
      PosixPath.join (PosixPath.join (PosixPath.dirname url1) group) (PosixPath.basename url1)
  (url1.splitOn '/').tail

/-- `_pathbeyondtopdirs`. -/
def pathbeyondtopdirs (env : Env) (t : Folders) (doc : Doc) : Option (Int × List Str) :=
  let url := Utf8.decodeReplace (docpath env doc)
  match rootEntry (t.dirvec.headD []) url with
  | none => none
  | some (rtpath, firstdiridx) =>
      let url1 := url.drop rtpath.length
      if firstdiridx = -1 ∨ url1 = [] then none
      else some (firstdiridx, pathElements (doc.get "group") url1)

/-- One turn of the walk of `_rcl2folders` down the elements of a path. -/
def placeStep (docidx : Nat) (mtype elt : Str) (last : Bool) (fathidx : Int) (t : Folders) :
    Option (Folders × Int) := do
  let dir ← t.dirAt fathidx
  match dir.lookup (.text elt) with
  | some ids =>
      let t ← if last then t.setEntry fathidx (.text elt) (ids.1, docidx) else some t
      return (t, ids.1)
  | none =>
      if last = false then t.createdir fathidx (-1) (.text elt)
      else if mtype = directoryType then t.createdir fathidx docidx (.text elt)
      else if mtype = playlistType then t.createpldir fathidx docidx (.text elt)
      else (t.setEntry fathidx (.text elt) (-1, docidx)).map fun t => (t, fathidx)

def place (docidx : Nat) (mtype : Str) : List Str → (fathidx : Int) → Folders → Option Folders
  | [], _, t => some t
  | elt :: rest, fathidx, t => do
      let (t, fathidx) ← placeStep docidx mtype elt (rest = []) fathidx t
      place docidx mtype rest fathidx t

/-- One turn of the document loop of `_rcl2folders`. -/
def addDoc (env : Env) (t : Folders) (doc : Doc) (docidx : Nat) : Option Folders :=
  if doc.get "mtype" ∉ audiomtypes then some t
  else
    match pathbeyondtopdirs env t doc with
    | none => some t
    | some (fathidx, path) =>
        if fathidx = 0 then some t else place docidx (doc.get "mtype") path fathidx t

def addDocs (env : Env) : List Doc → (docidx : Nat) → Folders → Option Folders
  | [], _, t => some t
  | doc :: rest, docidx, t => (addDoc env t doc docidx).bind (addDocs env rest (docidx + 1))

/-- The slashes at the end of a directory of the configuration do not count. -/
def rstripSlash (path : Str) : Str := path.rdropWhile (· = '/')

/-- The root, with its first directories. -/
def topTree (rcldocs : List Doc) (topdirs : List Str) : Folders where
  rcldocs
  dirvec :=
    ((topdirs.map rstripSlash).foldl
        (fun (tops : Dir × Nat) d =>
          (Dict.set tops.1 (.text d) ((tops.2 : Int), -1), tops.2 + 1))
        ([(dotdot, (0, -1))], 1)).1 ::
      topdirs.map fun _ => [(dotdot, (0, -1))]

/-- The rest of `_stat`, from a directory on. -/
def statFrom (t : Folders) : List Str → Ids → Option Ids
  | [], ids => some ids
  | elt :: rest, ids => do
      let dir ← t.dirAt ids.1
      match dir.lookup (.text elt) with
      | none => some (-1, -1)
      | some ids => statFrom t rest ids

/-- `_stat`. -/
def stat (env : Env) (t : Folders) (doc : Doc) : Option Ids :=
  match pathbeyondtopdirs env t doc with
  | none => some (-1, -1)
  | some (fathidx, pathl) =>
      if fathidx = 0 then some (-1, -1) else statFrom t pathl (fathidx, -1)

/-- The document which is made for a path. -/
def docOfPath (path : Bytes) : Doc := Doc.ofUrl (bytes "file://" ++ path)

/-- `statpath`: the index of the document with a path, if there is one. -/
def statpath (env : Env) (t : Folders) (plpath path : Bytes) : Option (Option Nat) :=
  let path :=
    if PosixPath.isabs path then path
    else PosixPath.join (PosixPath.dirname plpath) path
  (stat env t (docOfPath path)).map fun ids =>
    if 0 ≤ ids.2 ∧ ids.2 < (t.rcldocs.length : Int) then some ids.2.toNat else none

/-- `docforurl`. -/
def docforurl (url : Bytes) : Doc :=
  let tt := Utf8.decodeIgnore (PosixPath.basename url)
  (((Doc.ofUrl url).set "title" tt).set "text" tt).set "mtype" "audio/mpeg".toList

/-- A line of a playlist in `_initplaylists`. -/
def addLine (env : Env) (plpath : Bytes) (diridx : Nat) (t : Folders) (url : Bytes) :
    Option Folders :=
  if isUrl url then
    let doc := docforurl url
    let t := { t with moredocs := t.moredocs ++ [doc] }
    let docidx : Int := t.rcldocs.length + t.moredocs.length - 1
    t.setEntry diridx (.text (doc.get "title")) (-1, docidx)
  else do
    match ← statpath env t plpath url with
    -- an index is tested for truth, and that of the first document is zero
    | some (docidx + 1) =>
        t.setEntry diridx (.bytes (PosixPath.basename url)) (-1, docidx + 1)
    | _ => some t

def initplaylist (env : Env) (t : Folders) (diridx : Nat) : Option Folders := do
  let dir ← t.dirAt diridx
  let ids ← dir.lookup dot
  let i ← pyIndex t.rcldocs.length ids.2
  let pldoc ← t.rcldocs[i]?
  let plpath := docpath env pldoc
  match m3u env plpath with
  | none => some t
  | some lines => lines.foldlM (addLine env plpath diridx) t

/-- `_initplaylists`. -/
def initplaylists (env : Env) (t : Folders) : Option Folders :=
  t.playlists.foldlM (initplaylist env) t

/-- The document loop of `_rcl2folders`. -/
def documentTree (env : Env) (topdirs : List Str) (rcldocs : List Doc) : Option Folders :=
  addDocs env rcldocs 0 (topTree rcldocs topdirs)

/-- `_rcl2folders`. -/
def rcl2folders (env : Env) (topdirs : List Str) (rcldocs : List Doc) : Option Folders :=
  (documentTree env topdirs rcldocs).bind (initplaylists env)

/-- The walk of `dirpath` up to the root, with the names from below. The inner `none` is the
answer when it fails. -/
def dirpathFrom (t : Folders) : (steps : Nat) → Int → List Name → Option (Option (List Name))
  | 0, _, _ => some none
  | steps + 1, diridx, lpath => do
      let dir ← t.dirAt diridx
      let (fathidx, _) ← dir.lookup dotdot
      let father ← t.dirAt fathidx
      match father.find? fun entry => entry.2.1 = diridx with
      | none => some none
      | some (nm, _) =>
          let lpath := lpath ++ [nm]
          if lpath.length > 200 then some none
          else if fathidx = 0 then some (some lpath)
          else dirpathFrom t steps fathidx lpath

def Name.asText : Name → Option Str
  | .text nm => some nm
  | .bytes _ => none

/-- `dirpath` of a directory. There are at most 201 turns. -/
def dirpath (t : Folders) (diridx : Int) : Option Str :=
  if diridx = 0 then some "/".toList
  else do
    match ← dirpathFrom t 201 diridx [] with
    | none => return "/".toList
    | some lpath =>
        let names ← lpath.reverse.mapM Name.asText
        return names.flatMap fun elt => elt ++ "/".toList

end Folders

end Upmpdcli.Uprcl
