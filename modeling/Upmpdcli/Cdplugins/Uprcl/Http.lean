import Upmpdcli.Lib.Dict
import Upmpdcli.Lib.PosixPath
import Upmpdcli.Lib.Strip
import Upmpdcli.Lib.Text

set_option autoImplicit false

/- The file server of `uprclhttp.py`. Paths are texts, and the path of a request which is not
text is answered by bottle itself. -/
namespace Upmpdcli

namespace UprclHttp

open PosixPath

abbrev Path := List Char

/-- What mutagen makes of a file: an exception, nothing or no tags, or a type. -/
inductive Mutagen
  | raises
  | nothing
  | file (mime : String)

/-- What the system says of a path, and mutagen of the file there. `picture` is the embedded one
with its type and size, when there is one. -/
structure Host where
  found : Path → Bool
  isfile : Path → Bool
  access : Path → Bool
  mutagen : Path → Mutagen
  picture : Path → Option (String × Nat)
  foundBytes : List UInt8 → Bool

/-- A request which bottle has routed: the rule which matches, the remainder of the path after
it, and the undecoded path. -/
structure HttpRequest where
  host : Option (List Char)
  rule : Path
  filepath : Path
  raw_path : List UInt8
  embed : Bool

inductive HttpResponse
  | status (code : Nat)
  | raises
  | file (path : Path) (mimetype : Option String)
  | picture (path : Path) (ctype : String) (size : Nat)

/-- The file whose content a response has. -/
def HttpResponse.opened : HttpResponse → Option Path
  | .file path _ => some path
  | .picture path _ _ => some path
  | _ => none

/-- One or more characters of a class, with what is behind them. -/
def some1 (p : Char → Bool) (text : List Char) : Option (List Char) :=
  match text with
  | [] => none
  | c :: rest => if p c then some (rest.dropWhile p) else none

def literal (c : Char) (text : List Char) : Option (List Char) :=
  match text with
  | [] => none
  | d :: rest => if d = c then some rest else none

def isHex (c : Char) : Bool := c.isDigit || ('a' ≤ c && c ≤ 'f') || ('A' ≤ c && c ≤ 'F')

/-- `_hostre`: a numeric address and a port. -/
def hostre (text : List Char) : Bool :=
  (some1 Char.isDigit text >>= literal '.' >>= some1 Char.isDigit >>= literal '.' >>=
      some1 Char.isDigit >>= literal '.' >>= some1 Char.isDigit >>= literal ':' >>=
      some1 Char.isDigit).isSome ||
    (literal '[' text >>= some1 (fun c => isHex c || c = ':') >>= literal ']' >>= literal ':' >>=
      some1 Char.isDigit).isSome

def checkhost (req : HttpRequest) : Bool :=
  match req.host with
  | none => true
  | some host => hostre host

def abspath (cwd path : Path) : Path := normpath (if isabs path then path else join cwd path)

/-- What `strip('/\\')` takes off. -/
def edge (c : Char) : Bool := c = '/' || c = '\\'

/-- `static_file` of bottle. The conditional and the partial answers are the one of the file. -/
def static_file (cwd : Path) (h : Host) (filename root : Path) (mimetype : Option String) :
    HttpResponse :=
  let root := abspath cwd root ++ ['/']
  let filename := abspath cwd (join root (Strip.strip edge filename))
  if root.isPrefixOf filename = false then .status 403
  else if h.found filename = false ∨ h.isfile filename = false then .status 404
  else if h.access filename = false then .status 403
  else .file filename mimetype

/-- The erasure of the extension which the url of an embedded picture has. -/
def withoutExtension (filepath : Path) : Path :=
  match Text.rfind ['.'] filepath with
  | some i => filepath.take i
  | none => filepath.dropLast

/-- `Streamer.__call__` of the object with this root. -/
def streamer (cwd : Path) (h : Host) (root : Path) (req : HttpRequest) : HttpResponse :=
  if checkhost req = false then .status 404
  else if req.embed then
    let apath := join root (withoutExtension req.filepath)
    match h.picture apath with
    | none => .raises
    | some (ctype, size) => .picture apath ctype size
  else
    let fullpath := join root req.filepath
    if h.found fullpath then
      match h.mutagen fullpath with
      | .raises => .raises
      | .nothing => static_file cwd h fullpath ['/'] none
      | .file mime => static_file cwd h fullpath ['/'] (some mime)
    else if h.foundBytes req.raw_path then
      -- the raw path is bytes, and static_file cannot add a separator to its root
      .raises
    else .status 404

/-- The path map, from its text. -/
def pathmap (pthstr : List Char) : Option (List (Path × Path)) :=
  (Text.split [','] pthstr).foldlM
    (fun map ptt =>
      match Text.split [':'] ptt with
      | from_ :: dir :: _ => some (Dict.set map from_ dir)
      | _ => none)
    []

/-- The rules of `runbottle`, each with the root of its streamer. -/
def runbottle (pthstr : List Char) : Option (List (Path × Path)) :=
  (Text.split [','] pthstr).foldlM
    (fun rules ptt =>
      match Text.split [':'] ptt with
      | rt :: dir :: _ =>
          match rt.getLast? with
          | none => none
          | some last => some (Dict.set rules (if last ≠ '/' then rt ++ ['/'] else rt) dir)
      | _ => none)
    []

/-- The answer to a request, when the server runs and has the rule. -/
def serve (cwd : Path) (h : Host) (pthstr : List Char) (req : HttpRequest) :
    Option HttpResponse :=
  match pathmap pthstr, runbottle pthstr with
  | some _, some rules => (rules.lookup req.rule).map fun root => streamer cwd h root req
  | _, _ => none

/-- A place is one of the directories of the path map, or below it. -/
def Below (cwd : Path) (map : List (Path × Path)) (target : List Path) : Prop :=
  ∃ dir ∈ map.map Prod.snd, place (walk [] cwd) dir <+: target

/-- Where the text of a request leads. The one of a picture starts at the root of its streamer,
when it is not absolute. The other texts are put behind this root, when they are not absolute, lose
the slashes and the backslashes at both ends, and start at the root of the system. -/
def target (cwd root : Path) (req : HttpRequest) : List Path :=
  if req.embed then
    if isabs (withoutExtension req.filepath) then walk [] (withoutExtension req.filepath)
    else walk (place (walk [] cwd) root) (withoutExtension req.filepath)
  else
    walk [] (Strip.strip edge
      (if isabs req.filepath then req.filepath else root ++ '/' :: req.filepath))

/-- The text of a request leads below a directory of the path map. -/
def Inside (cwd : Path) (pthstr : List Char) (req : HttpRequest) : Prop :=
  ∀ map rules root, pathmap pthstr = some map → runbottle pthstr = some rules →
    rules.lookup req.rule = some root → checkhost req = true →
    Below cwd map (target cwd root req)

section Texts

theorem rdropWhile_append (p : Char → Bool) (before after : Path) :
    (before ++ after).rdropWhile p =
      if after.rdropWhile p = [] then before.rdropWhile p else before ++ after.rdropWhile p := by
  simp only [List.rdropWhile, List.reverse_append, List.dropWhile_append, List.reverse_eq_nil_iff,
    List.isEmpty_iff]
  split
  · rfl
  · rw [List.reverse_append, List.reverse_reverse]

theorem rdropWhile_slash (after : Path) :
    ('/' :: after).rdropWhile edge =
      if after.rdropWhile edge = [] then [] else '/' :: after.rdropWhile edge := by
  have split := rdropWhile_append edge ['/'] after
  rwa [List.singleton_append, List.singleton_append,
    show ['/'].rdropWhile edge = [] by decide] at split

theorem strip_slash (path : Path) : Strip.strip edge ('/' :: path) = Strip.strip edge path := by
  rw [Strip.strip, Strip.strip, rdropWhile_slash]
  split
  · rename_i empty
    rw [empty]
  · rfl

/-- A second slash does not count, though the ends are taken off. -/
theorem walk_strip_slash (before after : Path) :
    walk [] (Strip.strip edge (before ++ '/' :: '/' :: after)) =
      walk [] (Strip.strip edge (before ++ '/' :: after)) := by
  rw [Strip.strip, Strip.strip, rdropWhile_append, rdropWhile_append, rdropWhile_slash,
    rdropWhile_slash]
  by_cases empty : after.rdropWhile edge = []
  · simp [empty]
  · simp only [empty, if_false, List.cons_ne_nil]
    rw [List.dropWhile_append, List.dropWhile_append]
    split
    · rfl
    · exact (walk_append [] _ _).trans
        ((walk_slash _ _).trans (walk_append [] _ _).symm)

/-- The remainder behind the root of a streamer, as `os.path.join` puts it. -/
theorem walk_strip_join {filepath : Path} (relative : isabs filepath = false) (root : Path) :
    walk [] (Strip.strip edge (join root filepath)) =
      walk [] (Strip.strip edge (root ++ '/' :: filepath)) := by
  rw [join, if_neg (by simp [relative])]
  split
  · rename_i ends
    rcases ends with empty | last
    · rw [empty, List.nil_append, List.nil_append, strip_slash]
    · obtain ⟨before, rfl⟩ := List.getLast?_eq_some_iff.mp last
      rw [List.append_assoc, List.append_assoc]
      exact (walk_strip_slash before filepath).symm
  · rfl

end Texts

/-- The path which `static_file` opens. -/
def staticPath (cwd fullpath : Path) : Path :=
  abspath cwd (join ['/', '/'] (Strip.strip edge fullpath))

theorem strip_relative (path : Path) : isabs (Strip.strip edge path) = false := by
  cases text : Strip.strip edge path with
  | nil => rfl
  | cons c rest =>
      have first := (Strip.strip_stripped edge path).first c (by rw [text]; rfl)
      have other : c ≠ '/' := by
        rintro rfl
        cases first
      simpa [isabs, PathChar.slash] using other

theorem staticPath_eq (cwd fullpath : Path) :
    staticPath cwd fullpath = normpath ('/' :: '/' :: Strip.strip edge fullpath) := by
  rw [staticPath, join, strip_relative, if_neg Bool.false_ne_true, if_pos (.inr rfl)]
  rfl

theorem place_staticPath (cwd fullpath : Path) :
    place (walk [] cwd) (staticPath cwd fullpath) = walk [] (Strip.strip edge fullpath) := by
  rw [staticPath_eq, place, if_pos (isabs_normpath rfl), walk_normpath rfl]
  exact (walk_slash [] _).trans (walk_slash [] _)

/-- The test of the root never fails when it is the one of the system. -/
theorem prefix_staticPath (cwd fullpath : Path) :
    (abspath cwd ['/'] ++ ['/']).isPrefixOf (staticPath cwd fullpath) = true := by
  have root : abspath cwd ['/'] = ['/'] := rfl
  have double : leading ('/' :: '/' :: Strip.strip edge fullpath) = ['/', '/'] := by
    have relative := strip_relative fullpath
    rw [leading, if_pos]
    · rfl
    · refine ⟨rfl, ?_⟩
      cases text : Strip.strip edge fullpath with
      | nil => decide
      | cons c rest =>
          rw [text] at relative
          rw [List.isPrefixOf_iff_prefix, List.cons_prefix_cons, List.cons_prefix_cons,
            List.cons_prefix_cons]
          rintro ⟨_, _, same, _⟩
          rw [← same] at relative
          cases relative
  rw [root, staticPath_eq, normpath_of_isabs rfl, double, List.isPrefixOf_iff_prefix]
  exact List.prefix_append _ _

theorem static_file_opened {cwd : Path} {h : Host} {fullpath path : Path}
    {mimetype : Option String}
    (opened : (static_file cwd h fullpath ['/'] mimetype).opened = some path) :
    path = staticPath cwd fullpath := by
  unfold static_file at opened
  dsimp only at opened
  split at opened
  · cases opened
  · split at opened
    · cases opened
    · split at opened
      · cases opened
      · cases opened
        rfl

/-- What a streamer opens is where the text of the request leads. -/
theorem place_of_streamer {cwd : Path} {h : Host} {root path : Path} {req : HttpRequest}
    (opened : (streamer cwd h root req).opened = some path) :
    checkhost req = true ∧ place (walk [] cwd) path = target cwd root req := by
  unfold streamer at opened
  cases numeric : checkhost req with
  | false =>
      rw [numeric, if_pos rfl] at opened
      cases opened
  | true =>
      refine ⟨rfl, ?_⟩
      rw [numeric, if_neg (by decide)] at opened
      unfold target
      cases embed : req.embed with
      | true =>
          rw [embed, if_pos rfl] at opened
          dsimp only at opened
          split at opened
          · cases opened
          · cases opened
            rw [if_pos rfl, place_join]
      | false =>
          rw [embed, if_neg (by decide)] at opened
          dsimp only at opened
          have leads : path = staticPath cwd (join root req.filepath) := by
            split at opened
            · split at opened
              · cases opened
              · exact static_file_opened opened
              · exact static_file_opened opened
            · split at opened
              · cases opened
              · cases opened
          rw [if_neg (by decide), leads, place_staticPath]
          by_cases absolute : isabs req.filepath = true
          · rw [join, if_pos absolute, if_pos absolute]
          · rw [if_neg absolute]
            exact walk_strip_join (by simpa using absolute) root

/-- A system which has a file with a picture wherever it is asked. -/
def everything : Host where
  found _ := true
  isfile _ := true
  access _ := true
  mutagen _ := .nothing
  picture _ := some ("image/jpeg", 0)
  foundBytes _ := true

theorem static_file_everything (cwd fullpath : Path) :
    static_file cwd everything fullpath ['/'] none = .file (staticPath cwd fullpath) none := by
  have inside := prefix_staticPath cwd fullpath
  rw [staticPath] at inside
  unfold static_file
  have root : abspath cwd ['/'] ++ ['/'] = ['/', '/'] := rfl
  dsimp only
  rw [root] at inside ⊢
  rw [inside, if_neg (by decide), if_neg (by simp [everything]), if_neg (by simp [everything])]
  rfl

/-- There a streamer opens something for each request with a good host. -/
theorem everything_opened (cwd root : Path) {req : HttpRequest} (numeric : checkhost req = true) :
    ∃ path, (streamer cwd everything root req).opened = some path := by
  unfold streamer
  rw [numeric, if_neg (by decide)]
  split
  · exact ⟨_, rfl⟩
  · refine ⟨staticPath cwd (join root req.filepath), ?_⟩
    have found : everything.found (join root req.filepath) = true := rfl
    dsimp only
    rw [found, if_pos rfl]
    change (static_file cwd everything (join root req.filepath) ['/'] none).opened = _
    rw [static_file_everything]
    rfl

/-- Every file which is served is below a directory of the path map, in whatever the system holds,
if and only if the text of the request leads there. -/
theorem served_below_iff_inside (cwd : Path) (pthstr : List Char) (req : HttpRequest) :
    (∀ (h : Host) (map : List (Path × Path)) (response : HttpResponse) (path : Path),
      pathmap pthstr = some map → serve cwd h pthstr req = some response →
      response.opened = some path → Below cwd map (place (walk [] cwd) path)) ↔
      Inside cwd pthstr req := by
  constructor
  · intro confined map rules root mapped ran ruled numeric
    obtain ⟨path, opened⟩ := everything_opened cwd root numeric
    have served : serve cwd everything pthstr req = some (streamer cwd everything root req) := by
      rw [serve, mapped, ran]
      dsimp only
      rw [ruled, Option.map_some]
    have below := confined everything map _ path mapped served opened
    rwa [(place_of_streamer opened).2] at below
  · intro inside h map response path mapped served opened
    unfold serve at served
    rw [mapped] at served
    cases ran : runbottle pthstr with
    | none =>
        rw [ran] at served
        cases served
    | some rules =>
        rw [ran] at served
        obtain ⟨root, ruled, rfl⟩ := Option.map_eq_some_iff.mp served
        obtain ⟨numeric, leads⟩ := place_of_streamer opened
        rw [leads]
        exact inside map rules root mapped ran ruled numeric

/-- An absolute remainder. -/
theorem not_served_below_absolute :
    ¬ ∀ (cwd : Path) (pthstr : List Char) (req : HttpRequest) (h : Host)
      (map : List (Path × Path)) (response : HttpResponse) (path : Path),
      pathmap pthstr = some map → serve cwd h pthstr req = some response →
      response.opened = some path → Below cwd map (place (walk [] cwd) path) := by
  intro law
  have below := law "/".toList "/m/music:/m/music".toList
    { host := some "192.168.4.4:9090".toList, rule := "/m/music/".toList,
      filepath := "/etc/passwd".toList,
      raw_path := "/m/music//etc/passwd".toList.map (·.toNat.toUInt8), embed := false }
    everything _ _ "//etc/passwd".toList rfl rfl rfl
  exact absurd below (by unfold Below; decide)

end UprclHttp

end Upmpdcli
