import Mathlib.Data.List.Nodup
import Mathlib.Data.List.TakeWhile
import Upmpdcli.Lib.Backtrack
import Upmpdcli.Lib.Dict
import Upmpdcli.Lib.MapM
import Upmpdcli.Lib.Utf8

set_option autoImplicit false

/- The routes of the plugins which came from Kodi: the object ids they make for their views, and
the views they call for an object id. -/
namespace Upmpdcli.Routing

open Backtrack

abbrev Text := List Char

/-- What stands between two slashes of a pattern. -/
inductive Segment where
  | word (text : Text)
  | keyword (name : Text)
deriving DecidableEq

namespace Segment

/-- The other characters of `[A-z]` cannot be in the name of a group. -/
def letter (c : Char) : Bool := c.isAlpha || c == '_'

def ofText (text : Text) : Segment :=
  let name := (text.drop 1).dropLast
  if text = '<' :: (name ++ ['>']) ∧ name ≠ [] ∧ name.all letter = true then .keyword name
  else .word text

/-- A word is no regular expression, and no format either. -/
def plain : Segment → Bool
  | word text => text.all fun c => c.isAlphanum || c == '_' || c == '-'
  | keyword _ => true

def name? : Segment → Option Text
  | word _ => none
  | keyword name => some name

/-- Only the pattern of the root has an empty word at its beginning. -/
def grounded : List Segment → Bool
  | [] => false
  | word [] :: more => more.isEmpty
  | _ => true

end Segment

def keywordsOf (segments : List Segment) : List Text := segments.filterMap Segment.name?

@[simp] theorem keywordsOf_word (text : Text) (more : List Segment) :
    keywordsOf (.word text :: more) = keywordsOf more := rfl

@[simp] theorem keywordsOf_keyword (name : Text) (more : List Segment) :
    keywordsOf (.keyword name :: more) = name :: keywordsOf more := rfl

structure UrlRule where
  segments : List Segment
  plain : segments.all Segment.plain = true
  distinct : (keywordsOf segments).Nodup
  grounded : Segment.grounded segments = true
deriving DecidableEq

/-- A part of the regular expression: a character as it is, or `(?P<name>[^/]+?)`. -/
inductive Piece where
  | char (c : Char)
  | group (name : Text)

def Segment.pieces : Segment → List Piece
  | word text => text.map .char
  | keyword name => [.group name]

def regexOf (segments : List Segment) : List Piece :=
  segments.flatMap fun segment => .char '/' :: segment.pieces

/-- What the groups have taken when `^`, the pieces and `$` match. -/
def matchPieces : List Piece → Text → Option (List (Text × Text))
  | [], text => if text = [] ∨ text = ['\n'] then some [] else none
  | .char _ :: _, [] => none
  | .char c :: more, d :: text => if d = c then matchPieces more text else none
  | .group _ :: _, [] => none
  | .group name :: more, c :: text =>
      if c = '/' then none
      else (lazily (· == '/') (matchPieces more) [c] text).map fun found =>
        ((name, found.1) :: found.2)

/-- The pattern with its keywords replaced, or the `KeyError`. -/
def format : List Segment → List (Text × Text) → Option Text
  | [], _ => some []
  | .word text :: more, kwargs => (format more kwargs).map fun path => '/' :: text ++ path
  | .keyword name :: more, kwargs =>
      (kwargs.lookup name).bind fun value =>
        (format more kwargs).map fun path => '/' :: value ++ path

/-- The pattern with its keywords replaced in their order, or the `TypeError`. -/
def percent : List Segment → List Text → Option Text
  | [], [] => some []
  | [], _ :: _ => none
  | .word text :: more, args => (percent more args).map fun path => '/' :: text ++ path
  | .keyword _ :: _, [] => none
  | .keyword _ :: more, value :: args => (percent more args).map fun path => '/' :: value ++ path

def hexDigits : Text := "0123456789ABCDEF".toList

/-- What `urlencode` makes of a key or of a value. -/
def quote_plus (text : Text) : Text :=
  text.flatMap fun c =>
    if c = ' ' then ['+']
    else if c.isAlphanum || "_.-~".toList.contains c then [c]
    else (Utf8.encode [c]).flatMap fun b =>
      ['%', hexDigits.getD (b.toNat / 16) '0', hexDigits.getD (b.toNat % 16) '0']

def urlencode (pairs : List (Text × Text)) : Text :=
  ['&'].intercalate (pairs.map fun pair => quote_plus pair.1 ++ '=' :: quote_plus pair.2)

namespace UrlRule

def keywords (rule : UrlRule) : List Text := keywordsOf rule.segments

def ofPattern (pattern : Text) : Option UrlRule :=
  let segments := ((pattern.drop 1).splitOn '/').map Segment.ofText
  if valid : pattern.head? = some '/' ∧ segments.all Segment.plain = true ∧
      (keywordsOf segments).Nodup ∧ Segment.grounded segments = true then
    some ⟨segments, valid.2.1, valid.2.2.1, valid.2.2.2⟩
  else none

def match_ (rule : UrlRule) (path : Text) : Option (List (Text × Text)) :=
  matchPieces (regexOf rule.segments) path

/-- The arguments which are no keywords of the pattern. -/
def query (rule : UrlRule) (kwargs : List (Text × Text)) : Text :=
  let qs_kwargs := kwargs.filter fun arg => !rule.keywords.contains arg.1
  if qs_kwargs = [] then [] else '?' :: urlencode qs_kwargs

def make_path (rule : UrlRule) (args : List Text) (kwargs : List (Text × Text)) : Option Text :=
  if args ≠ [] ∧ kwargs ≠ [] then none
  else if args ≠ [] then percent rule.segments args
  else
    let url_kwargs := kwargs.filter fun arg => rule.keywords.contains arg.1
    (format rule.segments url_kwargs).map (· ++ rule.query kwargs)

end UrlRule

/-- `F` are the view functions. -/
structure Plugin (F : Type) where
  rules : List (F × List UrlRule)
  base_url : Text

/-- What `urlsplit` takes out of a URL. -/
def unsafeChars : Text := "\t\r\n".toList

def cleanUrl (url : Text) : Text :=
  (url.dropWhile fun c => c.toNat ≤ 0x20).filter fun c => c ∉ unsafeChars

def schemeChar (c : Char) : Bool := c.isAlphanum || "+-.".toList.contains c

def dropScheme (url : Text) : Text :=
  let scheme := url.takeWhile (· ≠ ':')
  if url.head?.any Char.isAlpha && scheme.all schemeChar && url.contains ':' then
    url.drop (scheme.length + 1)
  else url

def hostChar (c : Char) : Bool := c ∉ "/?#".toList

/-- What is before the fragment and the query. -/
def pathOf (text : Text) : Text := (text.takeWhile (· ≠ '#')).takeWhile (· ≠ '?')

/-- The path of a URL, or the `ValueError`. `refused` are the hosts which `urlsplit` does not
take. -/
def urlsplitPath (refused : Text → Bool) (url : Text) : Option Text :=
  match dropScheme (cleanUrl url) with
  | '/' :: '/' :: rest =>
      if refused (rest.takeWhile hostChar) then none else some (pathOf (rest.dropWhile hostChar))
  | rest => some (pathOf rest)

namespace Plugin

variable {F : Type}

/-- The route as the decorator registers it. -/
def add_route [DecidableEq F] (plugin : Plugin F) (func : F) (rule : UrlRule) : Plugin F :=
  { plugin with
    rules := Dict.set plugin.rules func ((plugin.rules.lookup func).getD [] ++ [rule]) }

/-- The plugin of a file which has these routes. -/
def ofRoutes [DecidableEq F] (routes : List (F × String)) : Option (Plugin F) :=
  routes.foldlM (fun plugin route =>
    (UrlRule.ofPattern route.2.toList).map (plugin.add_route route.1)) ⟨[], []⟩

def url_for_path (plugin : Plugin F) (path : Text) : Text :=
  plugin.base_url ++ if path.head? = some '/' then path else '/' :: path

/-- The URL, or the `RoutingError`. -/
def url_for [DecidableEq F] (plugin : Plugin F) (func : F) (args : List Text)
    (kwargs : List (Text × Text)) : Option Text :=
  ((plugin.rules.lookup func).getD []).findSome? fun rule =>
    (rule.make_path args kwargs).map plugin.url_for_path

/-- The view which is called and its arguments, or the `RoutingError`. -/
def dispatch (plugin : Plugin F) (path : Text) : Option (F × List (Text × Text)) :=
  plugin.rules.findSome? fun entry =>
    entry.2.findSome? fun rule => (rule.match_ path).map fun kwargs => (entry.1, kwargs)

def run (plugin : Plugin F) (refused : Text → Bool) (url : Text) :
    Option (F × List (Text × Text)) :=
  (urlsplitPath refused url).bind fun path =>
    plugin.dispatch (if path = [] then ['/'] else path)

end Plugin

/-! The regular expression reads a path part by part. -/

/-- What the keywords get from the parts of a path. -/
def reads : List Segment → List Text → Option (List (Text × Text))
  | [], [] => some []
  | .word text :: more, part :: parts => if part = text then reads more parts else none
  | .keyword name :: more, part :: parts =>
      if part = [] then none else (reads more parts).map fun found => (name, part) :: found
  | _, _ => none

/-- What can be in an argument without its being cut, changed or lost in the URL. -/
def solid (c : Char) : Bool := hostChar c && c ∉ unsafeChars

structure Clean (value : Text) : Prop where
  filled : value ≠ []
  solid : ∀ c ∈ value, solid c = true

theorem solid_iff {c : Char} :
    solid c = true ↔ (c ≠ '/' ∧ c ≠ '?' ∧ c ≠ '#') ∧ c ≠ '\t' ∧ c ≠ '\r' ∧ c ≠ '\n' := by
  simp [solid, hostChar, unsafeChars]

theorem solid_of_plain {c : Char} (word : (c.isAlphanum || c == '_' || c == '-') = true) :
    solid c = true := by
  rw [solid_iff]
  refine ⟨⟨?_, ?_, ?_⟩, ?_, ?_, ?_⟩ <;>
    · rintro rfl
      exact absurd word (by decide)

theorem slash_not_mem {text : Text} (whole : ∀ c ∈ text, solid c = true) : '/' ∉ text :=
  fun member => absurd (whole _ member) (by decide)

theorem newline_not_mem {text : Text} (whole : ∀ c ∈ text, solid c = true) : '\n' ∉ text :=
  fun member => absurd (whole _ member) (by decide)

theorem solid_of_word {text : Text} (word : Segment.plain (.word text) = true) :
    ∀ c ∈ text, solid c = true :=
  fun c member => solid_of_plain (List.all_eq_true.mp word c member)

/-- Behind a segment there is a slash or nothing. -/
theorem matchPieces_cons_of_ne {segments : List Segment} {c : Char} (middle : c ≠ '/')
    (inside : c ≠ '\n') (text : Text) : matchPieces (regexOf segments) (c :: text) = none := by
  cases segments with
  | nil =>
      show matchPieces [] (c :: text) = none
      rw [matchPieces, if_neg]
      rintro (empty | last)
      · cases empty
      · exact inside (List.cons.inj last).1
  | cons segment more =>
      show matchPieces (.char '/' :: _) (c :: text) = none
      rw [matchPieces, if_neg middle]

theorem matchPieces_word {segments : List Segment} {text part behind : Text}
    (free : '/' ∉ text) (free' : '/' ∉ part) (inside : '\n' ∉ part)
    (begins : ∀ c ∈ behind.head?, c = '/') :
    matchPieces (text.map Piece.char ++ regexOf segments) (part ++ behind) =
      if part = text then matchPieces (regexOf segments) behind else none := by
  induction text generalizing part with
  | nil =>
      cases part with
      | nil => rfl
      | cons c part =>
          rw [if_neg (List.cons_ne_nil _ _)]
          rw [List.mem_cons, not_or] at free' inside
          exact matchPieces_cons_of_ne (Ne.symm free'.1) (Ne.symm inside.1) _
  | cons c text ih =>
      rw [List.mem_cons, not_or] at free
      cases part with
      | nil =>
          rw [if_neg (List.cons_ne_nil _ _).symm, List.nil_append, List.map_cons, List.cons_append]
          cases behind with
          | nil => rfl
          | cons d behind =>
              obtain rfl := begins d rfl
              rw [matchPieces, if_neg free.1]
      | cons d part =>
          rw [List.mem_cons, not_or] at free' inside
          rw [List.map_cons, List.cons_append, List.cons_append, matchPieces,
            ih free.2 free'.2 inside.2]
          by_cases same : d = c
          · subst same
            simp only [if_true, List.cons.injEq, true_and]
          · rw [if_neg same, if_neg fun whole => same (List.cons.inj whole).1]

theorem matchPieces_keyword {segments : List Segment} {name part behind : Text}
    (free : '/' ∉ part) (inside : '\n' ∉ part ++ behind) (begins : ∀ c ∈ behind.head?, c = '/') :
    matchPieces (.group name :: regexOf segments) (part ++ behind) =
      if part = [] then none
      else (matchPieces (regexOf segments) behind).map fun found => (name, part) :: found := by
  cases part with
  | nil =>
      rw [if_pos rfl, List.nil_append]
      cases behind with
      | nil => rfl
      | cons d behind =>
          obtain rfl := begins d rfl
          rw [matchPieces, if_pos rfl]
  | cons c part =>
      rw [List.mem_cons, not_or] at free
      rw [if_neg (List.cons_ne_nil _ _), List.cons_append, matchPieces, if_neg (Ne.symm free.1)]
      cases later : matchPieces (regexOf segments) behind with
      | some found =>
          -- the group goes to the end of its part, where the rest matches for the first time
          have early : ∀ d ∈ part, (d == '/') = false ∧
              ∀ text, matchPieces (regexOf segments) (d :: text) = none := by
            intro d member
            have middle : d ≠ '/' := fun same => free.2 (same ▸ member)
            have line : d ≠ '\n' := by
              rintro rfl
              exact inside (by simp [member])
            exact ⟨beq_false_of_ne middle, matchPieces_cons_of_ne middle line⟩
          rw [lazily_append early later]
          rfl
      | none =>
          cases taken : lazily (· == '/') (matchPieces (regexOf segments)) [c]
              (part ++ behind) with
          | none => rfl
          | some found =>
              exfalso
              obtain ⟨more, rest, whole, -, others, matched⟩ := lazily_eq_some taken
              have free' : '/' ∉ more := fun member => absurd (others _ member) (by decide)
              have begins' : ∀ d ∈ rest.head?, d = '/' := by
                intro d first
                by_contra middle
                obtain ⟨text, rfl⟩ := List.head?_eq_some_iff.mp first
                have line : d ≠ '\n' := by
                  rintro rfl
                  rw [List.cons_append, whole] at inside
                  simp at inside
                rw [matchPieces_cons_of_ne middle line] at matched
                cases matched
              obtain ⟨-, rfl⟩ := append_inj_of_begins free.2 free' begins begins' whole
              rw [later] at matched
              cases matched

/-- Matching with backtracking finds what reading part by part finds. -/
theorem matchPieces_joined {segments : List Segment} (plain : segments.all Segment.plain = true)
    {parts : List Text} (whole : ∀ part ∈ parts, '/' ∉ part ∧ '\n' ∉ part) :
    matchPieces (regexOf segments) (joined '/' parts) = reads segments parts := by
  induction segments generalizing parts with
  | nil =>
      cases parts with
      | nil => rfl
      | cons part parts =>
          show matchPieces [] ('/' :: part ++ joined '/' parts) = none
          rw [List.cons_append, matchPieces, if_neg]
          rintro (empty | line)
          · cases empty
          · exact absurd (List.cons.inj line).1 (by decide)
  | cons segment more ih =>
      rw [List.all_cons, Bool.and_eq_true] at plain
      cases parts with
      | nil => cases segment <;> rfl
      | cons part parts =>
          rw [List.forall_mem_cons] at whole
          have behind : ∀ c ∈ (joined '/' parts).head?, c = '/' := head_joined parts
          have slash : matchPieces (regexOf (segment :: more)) (joined '/' (part :: parts)) =
              matchPieces (segment.pieces ++ regexOf more) (part ++ joined '/' parts) := by
            show matchPieces (.char '/' :: (segment.pieces ++ regexOf more))
              ('/' :: (part ++ joined '/' parts)) = _
            rw [matchPieces, if_pos rfl]
          rw [slash]
          cases segment with
          | word text =>
              have free := slash_not_mem (solid_of_word plain.1)
              rw [reads, ← ih plain.2 whole.2]
              exact matchPieces_word free whole.1.1 whole.1.2 behind
          | keyword name =>
              have inside : '\n' ∉ part ++ joined '/' parts := by
                rw [List.mem_append, not_or]
                refine ⟨whole.1.2, fun member => ?_⟩
                obtain ⟨other, there, member⟩ := List.mem_flatMap.mp member
                rcases List.mem_cons.mp member with same | member
                · exact absurd same (by decide)
                · exact (whole.2 other there).2 member
              rw [reads, ← ih plain.2 whole.2]
              exact matchPieces_keyword whole.1.1 inside behind

/-- What is taken is in the path, and it is a whole part of it. -/
theorem values_of_matchPieces {pieces : List Piece} {path : Text} {found : List (Text × Text)}
    (matched : matchPieces pieces path = some found) :
    ∀ value ∈ found.map Prod.snd, value ≠ [] ∧ '/' ∉ value ∧ ∀ c ∈ value, c ∈ path := by
  induction pieces generalizing path found with
  | nil =>
      rw [matchPieces] at matched
      split at matched
      · cases matched
        exact fun value member => absurd member List.not_mem_nil
      · cases matched
  | cons piece more ih =>
      cases path with
      | nil => cases piece <;> cases matched
      | cons c path =>
          cases piece with
          | char d =>
              rw [matchPieces] at matched
              split at matched
              · intro value member
                obtain ⟨filled, free, from_path⟩ := ih matched value member
                exact ⟨filled, free, fun e there => List.mem_cons_of_mem c (from_path e there)⟩
              · cases matched
          | group name =>
              rw [matchPieces] at matched
              split at matched
              · cases matched
              · rename_i middle
                obtain ⟨⟨taken, found'⟩, lazy, rfl⟩ := Option.map_eq_some_iff.mp matched
                obtain ⟨part, behind, rfl, rfl, others, later⟩ := lazily_eq_some lazy
                intro value member
                rw [List.map_cons, List.mem_cons] at member
                rcases member with rfl | member
                · refine ⟨List.cons_ne_nil _ _, fun slash => ?_, fun e there => ?_⟩
                  · rcases List.mem_append.mp slash with first | inside
                    · exact middle (List.mem_singleton.mp first).symm
                    · exact absurd (others _ inside) (by decide)
                  · rw [List.singleton_append] at there
                    exact List.mem_append_left behind there
                · obtain ⟨filled, free, from_path⟩ := ih later value member
                  refine ⟨filled, free, fun e there => ?_⟩
                  exact List.mem_cons_of_mem c (List.mem_append_right part (from_path e there))

/-! Patterns which no path matches both. -/

def Segment.apart : List Segment → List Segment → Bool
  | [], [] => false
  | .word text :: more, .word other :: more' => text != other || apart more more'
  | _ :: more, _ :: more' => apart more more'
  | _, _ => true

theorem reads_eq_none_of_apart {segments others : List Segment} {parts : List Text}
    {found : List (Text × Text)} (apart : Segment.apart segments others = true)
    (matched : reads segments parts = some found) : reads others parts = none := by
  induction segments generalizing others parts found with
  | nil =>
      cases parts with
      | cons part parts => cases matched
      | nil =>
          cases others with
          | nil => cases apart
          | cons other others => cases other <;> rfl
  | cons segment more ih =>
      cases parts with
      | nil => cases segment <;> cases matched
      | cons part parts =>
          have behind : ∃ found', reads more parts = some found' := by
            cases segment with
            | word text =>
                rw [reads] at matched
                split at matched
                · exact ⟨found, matched⟩
                · cases matched
            | keyword name =>
                rw [reads] at matched
                split at matched
                · cases matched
                · obtain ⟨found', later, -⟩ := Option.map_eq_some_iff.mp matched
                  exact ⟨found', later⟩
          obtain ⟨found', behind⟩ := behind
          cases others with
          | nil => rfl
          | cons other others =>
              cases other with
              | keyword name =>
                  have later : reads others parts = none := by
                    cases segment <;> exact ih apart behind
                  rw [reads, later, Option.map_none, ite_self]
              | word other =>
                  rw [reads]
                  split
                  · rename_i same
                    cases segment with
                    | keyword name => exact ih apart behind
                    | word text =>
                        rw [reads] at matched
                        split at matched
                        · rename_i same'
                          rw [Segment.apart, ← same, ← same', bne_self_eq_false,
                            Bool.false_or] at apart
                          exact ih apart behind
                        · cases matched
                  · rfl

/-! The paths which are made from arguments. -/

/-- A segment with its argument in it. -/
def Segment.part (value : Text → Text) : Segment → Text
  | .word text => text
  | .keyword name => value name

namespace UrlRule

/-- The arguments by their names. -/
def given (rule : UrlRule) (args : List Text) (kwargs : List (Text × Text)) (name : Text) : Text :=
  ((if args = [] then kwargs else rule.keywords.zip args).lookup name).getD []

/-- The arguments which the view is to be called with. -/
def bound (rule : UrlRule) (args : List Text) (kwargs : List (Text × Text)) : List (Text × Text) :=
  rule.keywords.map fun name => (name, rule.given args kwargs name)

/-- Every keyword has its argument: by its place, or by its name beside others. -/
def Called (rule : UrlRule) (args : List Text) (kwargs : List (Text × Text)) : Prop :=
  kwargs = [] ∧ args.length = rule.keywords.length ∨
    args = [] ∧ ∀ name ∈ rule.keywords, (kwargs.lookup name).isSome

end UrlRule

theorem part_congr {segments : List Segment} {value value' : Text → Text}
    (same : ∀ name ∈ keywordsOf segments, value name = value' name) :
    segments.map (Segment.part value) = segments.map (Segment.part value') := by
  refine List.map_congr_left fun segment member => ?_
  cases segment with
  | word text => rfl
  | keyword name => exact same name (List.mem_filterMap.mpr ⟨_, member, rfl⟩)

theorem format_eq {segments : List Segment} {kwargs : List (Text × Text)}
    (all : ∀ name ∈ keywordsOf segments, (kwargs.lookup name).isSome) :
    format segments kwargs =
      some (joined '/' (segments.map (Segment.part fun name => (kwargs.lookup name).getD []))) := by
  induction segments with
  | nil => rfl
  | cons segment more ih =>
      cases segment with
      | word text =>
          rw [format, ih all]
          rfl
      | keyword name =>
          rw [keywordsOf_keyword, List.forall_mem_cons] at all
          obtain ⟨value, there⟩ := Option.isSome_iff_exists.mp all.1
          rw [format, ih all.2, there, Option.bind_some, Option.map_some, List.map_cons,
            joined_cons, Segment.part, there, Option.getD_some]

theorem percent_eq {segments : List Segment} {args : List Text}
    (distinct : (keywordsOf segments).Nodup)
    (many : args.length = (keywordsOf segments).length) :
    percent segments args = some (joined '/' (segments.map (Segment.part fun name =>
      (((keywordsOf segments).zip args).lookup name).getD []))) := by
  induction segments generalizing args with
  | nil =>
      cases args with
      | nil => rfl
      | cons value args => cases many
  | cons segment more ih =>
      cases segment with
      | word text =>
          rw [keywordsOf_word] at distinct many ⊢
          rw [percent, ih distinct many]
          rfl
      | keyword name =>
          rw [keywordsOf_keyword] at distinct many ⊢
          rw [List.nodup_cons] at distinct
          cases args with
          | nil => cases many
          | cons value args =>
              have others : ∀ other ∈ keywordsOf more,
                  (((keywordsOf more).zip args).lookup other).getD [] =
                    (((name :: keywordsOf more).zip (value :: args)).lookup
                      other).getD [] := by
                intro other member
                rw [List.zip_cons_cons, Dict.lookup_cons_of_ne]
                exact fun same : name = other => distinct.1 (same ▸ member)
              rw [percent, ih distinct.2 (Nat.succ.inj many), part_congr others, List.map_cons,
                Option.map_some, joined_cons, Segment.part, List.zip_cons_cons,
                List.lookup_cons_self, Option.getD_some]

theorem reads_filled {segments : List Segment} {value : Text → Text}
    (filled : ∀ name ∈ keywordsOf segments, value name ≠ []) :
    reads segments (segments.map (Segment.part value)) =
      some ((keywordsOf segments).map fun name => (name, value name)) := by
  induction segments with
  | nil => rfl
  | cons segment more ih =>
      cases segment with
      | word text =>
          rw [List.map_cons, Segment.part, reads, if_pos rfl, ih filled]
          rfl
      | keyword name =>
          rw [keywordsOf_keyword, List.forall_mem_cons] at filled
          rw [List.map_cons, Segment.part, reads, if_neg filled.1, ih filled.2]
          rfl

namespace UrlRule

variable {rule : UrlRule} {args : List Text} {kwargs : List (Text × Text)}

/-- The parts of the path which is made from the arguments. -/
def filled (rule : UrlRule) (args : List Text) (kwargs : List (Text × Text)) : List Text :=
  rule.segments.map (Segment.part (rule.given args kwargs))

theorem lookup_filter_keywords {names : List Text} {name : Text} (known : name ∈ names) :
    (kwargs.filter fun arg => names.contains arg.1).lookup name = kwargs.lookup name := by
  induction kwargs with
  | nil => rfl
  | cons arg rest ih =>
      by_cases same : arg.1 = name
      · obtain ⟨key, value⟩ := arg
        subst same
        rw [List.filter_cons_of_pos (by simpa using known), List.lookup_cons_self,
          List.lookup_cons_self]
      · rw [Dict.lookup_cons_of_ne same, ← ih]
        by_cases there : arg.1 ∈ names
        · rw [List.filter_cons_of_pos (by simpa using there), Dict.lookup_cons_of_ne same]
        · rw [List.filter_cons_of_neg (by simpa using there)]

theorem head_query (kwargs : List (Text × Text)) : ∀ c ∈ (rule.query kwargs).head?, c = '?' := by
  intro c member
  rw [query] at member
  split at member
  · cases member
  · exact (Option.some.inj member).symm

theorem make_path_named (all : ∀ name ∈ rule.keywords, (kwargs.lookup name).isSome) :
    rule.make_path [] kwargs = some (joined '/' (rule.filled [] kwargs) ++ rule.query kwargs) := by
  let url_kwargs := kwargs.filter fun arg => rule.keywords.contains arg.1
  have same (name : Text) (known : name ∈ rule.keywords) :
      url_kwargs.lookup name = kwargs.lookup name := lookup_filter_keywords known
  have filled_eq : rule.segments.map (Segment.part fun name => (url_kwargs.lookup name).getD []) =
      rule.filled [] kwargs :=
    part_congr fun name known => by rw [same name known, given, if_pos rfl]
  have made : format rule.segments url_kwargs = some (joined '/' (rule.filled [] kwargs)) := by
    rw [← filled_eq]
    refine format_eq fun name known => ?_
    rw [same name known]
    exact all name known
  show (if ([] : List Text) ≠ [] ∧ kwargs ≠ [] then none
    else if ([] : List Text) ≠ [] then percent rule.segments []
    else (format rule.segments url_kwargs).map (· ++ rule.query kwargs)) = _
  rw [if_neg (by simp), if_neg (by simp), made, Option.map_some]

theorem make_path_placed (many : args.length = rule.keywords.length) (some_arg : args ≠ []) :
    rule.make_path args [] = some (joined '/' (rule.filled args [])) := by
  have filled_eq : rule.segments.map (Segment.part fun name =>
      (((keywordsOf rule.segments).zip args).lookup name).getD []) = rule.filled args [] :=
    part_congr fun name _ => by rw [given, if_neg some_arg, keywords]
  rw [make_path, if_neg (by simp), if_pos some_arg, percent_eq rule.distinct many, filled_eq]

/-- Other arguments than the keywords go to the query. -/
theorem make_path_eq (call : rule.Called args kwargs) :
    rule.make_path args kwargs =
      some (joined '/' (rule.filled args kwargs) ++ rule.query kwargs) := by
  rcases call with ⟨rfl, many⟩ | ⟨rfl, all⟩
  · cases args with
    | nil =>
        refine make_path_named fun name known => ?_
        rw [List.eq_nil_of_length_eq_zero many.symm] at known
        cases known
    | cons value args =>
        rw [make_path_placed many (List.cons_ne_nil _ _)]
        exact congrArg some (List.append_nil _).symm
  · exact make_path_named all

end UrlRule

/-! The URL of a path, and its path again. -/

theorem mem_pathOf {text : Text} {c : Char} (member : c ∈ pathOf text) :
    c ∈ text ∧ c ≠ '#' ∧ c ≠ '?' := by
  have inside := (List.takeWhile_sublist _).mem member
  have query := List.mem_takeWhile_imp member
  have fragment := List.mem_takeWhile_imp inside
  exact ⟨(List.takeWhile_sublist _).mem inside, of_decide_eq_true fragment,
    of_decide_eq_true query⟩

theorem pathOf_append {text query : Text} (whole : ∀ c ∈ text, c ≠ '#' ∧ c ≠ '?')
    (behind : ∀ c ∈ query.head?, c = '?') : pathOf (text ++ query) = text := by
  have cut : (query.takeWhile (· ≠ '#')).takeWhile (· ≠ '?') = [] := by
    cases query with
    | nil => rfl
    | cons c query =>
        obtain rfl := behind c rfl
        rfl
  have fragment : (text ++ query).takeWhile (· ≠ '#') = text ++ query.takeWhile (· ≠ '#') :=
    List.takeWhile_append_of_pos fun c member => decide_eq_true (whole c member).1
  have path (rest : Text) : (text ++ rest).takeWhile (· ≠ '?') = text ++ rest.takeWhile (· ≠ '?') :=
    List.takeWhile_append_of_pos fun c member => decide_eq_true (whole c member).2
  rw [pathOf, fragment, path, cut, List.append_nil]

theorem mem_dropScheme {url : Text} {c : Char} (member : c ∈ dropScheme url) : c ∈ url := by
  simp only [dropScheme] at member
  split at member
  · exact List.mem_of_mem_drop member
  · exact member

/-- What `urlsplit` makes of a path has nothing in it which ends a path. -/
theorem solid_of_urlsplitPath {refused : Text → Bool} {url path : Text}
    (split : urlsplitPath refused url = some path) : ∀ c ∈ path, c = '/' ∨ solid c = true := by
  have free {text : Text} (part : ∀ c ∈ text, c ∈ dropScheme (cleanUrl url)) :
      ∀ c ∈ pathOf text, c = '/' ∨ solid c = true := by
    intro c member
    obtain ⟨inside, fragment, query⟩ := mem_pathOf member
    have kept : c ∉ unsafeChars :=
      of_decide_eq_true (List.mem_filter.mp (mem_dropScheme (part c inside))).2
    by_cases slash : c = '/'
    · exact Or.inl slash
    · exact Or.inr (by simp [solid, hostChar, slash, query, fragment, kept])
  unfold urlsplitPath at split
  split at split
  · rename_i rest shape
    split at split
    · cases split
    · cases split
      refine free fun c member => ?_
      rw [shape]
      exact List.mem_cons_of_mem _ (List.mem_cons_of_mem _ ((List.dropWhile_sublist _).mem member))
  · cases split
    exact free fun c member => member

/-- A path with a query behind it comes out as it is. -/
theorem urlsplitPath_of_solid (refused : Text → Bool) {text query : Text}
    (whole : ∀ c ∈ text, c = '/' ∨ solid c = true) (alone : text.head? ≠ some '/')
    (behind : ∀ c ∈ query.head?, c = '?') :
    urlsplitPath refused ('/' :: text ++ query) = some ('/' :: text) := by
  have each (c : Char) (member : c ∈ '/' :: text) : c ∉ unsafeChars ∧ c ≠ '#' ∧ c ≠ '?' := by
    rcases List.mem_cons.mp member with rfl | member
    · decide
    · rcases whole c member with rfl | free
      · decide
      · obtain ⟨⟨-, query, fragment⟩, tab, ret, line⟩ := solid_iff.mp free
        simp [unsafeChars, query, fragment, tab, ret, line]
  let kept := query.filter fun c => c ∉ unsafeChars
  have begins : ∀ c ∈ kept.head?, c = '?' := by
    cases query with
    | nil => exact fun c member => by cases member
    | cons d query =>
        obtain rfl := behind d rfl
        exact fun c member => (Option.some.inj member).symm
  have clean : cleanUrl ('/' :: text ++ query) = '/' :: text ++ kept := by
    rw [cleanUrl, List.cons_append, List.dropWhile_cons_of_neg (by decide), ← List.cons_append,
      List.filter_append, List.filter_eq_self.mpr fun c member => decide_eq_true (each c member).1]
  have scheme : dropScheme ('/' :: text ++ kept) = '/' :: (text ++ kept) := rfl
  have path : pathOf ('/' :: (text ++ kept)) = '/' :: text :=
    pathOf_append (fun c member => (each c member).2) begins
  rw [urlsplitPath, clean, scheme]
  split
  · rename_i rest same
    exfalso
    have second := (List.cons.inj same).2
    cases text with
    | cons c text => exact alone (congrArg some (List.cons.inj second).1)
    | nil =>
        rw [List.nil_append] at second
        exact absurd (begins '/' (by rw [second]; rfl)) (by decide)
  · exact congrArg some path

theorem solid_parts {segments : List Segment} {value : Text → Text}
    (plain : segments.all Segment.plain = true)
    (clean : ∀ name ∈ keywordsOf segments, Clean (value name)) :
    ∀ part ∈ segments.map (Segment.part value), ∀ c ∈ part, solid c = true := by
  intro part member
  obtain ⟨segment, there, rfl⟩ := List.mem_map.mp member
  cases segment with
  | word text => exact solid_of_word (List.all_eq_true.mp plain _ there)
  | keyword name => exact (clean name (List.mem_filterMap.mpr ⟨_, there, rfl⟩)).solid

/-- A path is not taken for a host. -/
theorem joined_filled {segments : List Segment} {value : Text → Text}
    (plain : segments.all Segment.plain = true) (grounded : Segment.grounded segments = true)
    (clean : ∀ name ∈ keywordsOf segments, Clean (value name)) :
    ∃ text, joined '/' (segments.map (Segment.part value)) = '/' :: text ∧
      text.head? ≠ some '/' ∧ ∀ c ∈ text, c = '/' ∨ solid c = true := by
  have whole : ∀ c ∈ joined '/' (segments.map (Segment.part value)), c = '/' ∨ solid c = true := by
    intro c member
    obtain ⟨part, there, member⟩ := List.mem_flatMap.mp member
    rcases List.mem_cons.mp member with same | member
    · exact Or.inl same
    · exact Or.inr (solid_parts plain clean part there c member)
  have first {c : Char} {more : Text} (free : solid c = true) :
      (c :: more).head? ≠ some '/' := by
    intro same
    exact (solid_iff.mp free).1.1 (Option.some.inj same)
  cases segments with
  | nil => cases grounded
  | cons segment more =>
      refine ⟨_, rfl, ?_, fun c member => whole c (List.mem_cons_of_mem _ member)⟩
      have parts := solid_parts plain clean
      rw [List.map_cons, List.forall_mem_cons] at parts
      cases segment with
      | keyword name =>
          have filled := (clean name (List.mem_cons_self ..)).filled
          obtain ⟨c, rest, shape⟩ := List.exists_cons_of_ne_nil filled
          rw [Segment.part, shape] at parts
          rw [Segment.part, shape]
          exact first (parts.1 c (List.mem_cons_self ..))
      | word text =>
          cases text with
          | cons c text => exact first (parts.1 c (List.mem_cons_self ..))
          | nil =>
              cases more with
              | nil => exact fun same => by cases same
              | cons other more => cases grounded

namespace Plugin

variable {F : Type} {plugin : Plugin F} {func : F} {rule : UrlRule}

theorem exists_of_dispatch {path : Text} {found : List (Text × Text)}
    (called : plugin.dispatch path = some (func, found)) :
    ∃ rule : UrlRule, rule.match_ path = some found := by
  obtain ⟨entry, -, called⟩ := List.exists_of_findSome?_eq_some called
  obtain ⟨rule, -, called⟩ := List.exists_of_findSome?_eq_some called
  obtain ⟨found', matched, same⟩ := Option.map_eq_some_iff.mp called
  cases same
  exact ⟨rule, matched⟩

/-- The routes of the other views match no path of this one. -/
def Apart [DecidableEq F] (plugin : Plugin F) (func : F) (rule : UrlRule) : Prop :=
  ∀ entry ∈ plugin.rules, entry.1 ≠ func → ∀ other ∈ entry.2,
    Segment.apart rule.segments other.segments = true

theorem dispatch_of_apart [DecidableEq F] {path : Text} {found : List (Text × Text)}
    (sole : plugin.rules.lookup func = some [rule])
    (others : ∀ entry ∈ plugin.rules, entry.1 ≠ func → ∀ other ∈ entry.2,
      other.match_ path = none)
    (own : rule.match_ path = some found) : plugin.dispatch path = some (func, found) := by
  unfold dispatch
  generalize plugin.rules = rules at sole others ⊢
  induction rules with
  | nil => cases sole
  | cons entry rest ih =>
      rw [List.forall_mem_cons] at others
      by_cases same : entry.1 = func
      · obtain ⟨key, rules⟩ := entry
        subst same
        rw [List.lookup_cons_self, Option.some.injEq] at sole
        subst sole
        rw [List.findSome?_cons, List.findSome?_cons, own]
        rfl
      · rw [Dict.lookup_cons_of_ne same] at sole
        have skipped : (entry.2.findSome? fun rule =>
            (rule.match_ path).map fun kwargs => (entry.1, kwargs)) = none := by
          refine List.findSome?_eq_none_iff.mpr fun other member => ?_
          rw [others.1 same other member, Option.map_none]
        rw [List.findSome?_cons, skipped]
        exact ih sole others.2

variable [DecidableEq F] {args : List Text} {kwargs : List (Text × Text)}

/-- The object id of a view, with the prefix of the plugin still missing. -/
theorem url_for_eq (base : plugin.base_url = []) (sole : plugin.rules.lookup func = some [rule])
    (call : rule.Called args kwargs) :
    plugin.url_for func args kwargs =
      some (joined '/' (rule.filled args kwargs) ++ rule.query kwargs) := by
  have slash : (joined '/' (rule.filled args kwargs) ++ rule.query kwargs).head? = some '/' := by
    have grounded := rule.grounded
    unfold UrlRule.filled
    generalize rule.segments = segments at grounded ⊢
    cases segments with
    | nil => cases grounded
    | cons segment more => rfl
  rw [url_for, sole, Option.getD_some, List.findSome?_cons, rule.make_path_eq call,
    Option.map_some, url_for_path, base, List.nil_append, if_pos slash]

theorem run_of_clean (refused : Text → Bool) (sole : plugin.rules.lookup func = some [rule])
    (apart : plugin.Apart func rule)
    (clean : ∀ value ∈ (rule.bound args kwargs).map Prod.snd, Clean value) :
    plugin.run refused (joined '/' (rule.filled args kwargs) ++ rule.query kwargs) =
      some (func, rule.bound args kwargs) := by
  have clean' : ∀ name ∈ keywordsOf rule.segments, Clean (rule.given args kwargs name) := by
    intro name known
    exact clean _ (List.mem_map.mpr ⟨_, List.mem_map.mpr ⟨name, known, rfl⟩, rfl⟩)
  have parts : ∀ part ∈ rule.filled args kwargs, '/' ∉ part ∧ '\n' ∉ part :=
    fun part member => ⟨slash_not_mem (solid_parts rule.plain clean' part member),
      newline_not_mem (solid_parts rule.plain clean' part member)⟩
  have own : reads rule.segments (rule.filled args kwargs) = some (rule.bound args kwargs) :=
    reads_filled fun name known => (clean' name known).filled
  have matches_own : rule.match_ (joined '/' (rule.filled args kwargs)) =
      some (rule.bound args kwargs) := by
    rw [UrlRule.match_, matchPieces_joined rule.plain parts, own]
  have others : ∀ entry ∈ plugin.rules, entry.1 ≠ func → ∀ other ∈ entry.2,
      other.match_ (joined '/' (rule.filled args kwargs)) = none := by
    intro entry member differ other there
    rw [UrlRule.match_, matchPieces_joined other.plain parts]
    exact reads_eq_none_of_apart (apart entry member differ other there) own
  obtain ⟨text, shape, alone, whole⟩ := joined_filled rule.plain rule.grounded clean'
  have split : urlsplitPath refused (joined '/' (rule.filled args kwargs) ++ rule.query kwargs) =
      some (joined '/' (rule.filled args kwargs)) := by
    rw [UrlRule.filled, shape]
    exact urlsplitPath_of_solid refused whole alone (UrlRule.head_query kwargs)
  have some_path : joined '/' (rule.filled args kwargs) ≠ [] := by
    rw [UrlRule.filled, shape]
    exact List.cons_ne_nil _ _
  rw [run, split, Option.bind_some, if_neg some_path]
  exact dispatch_of_apart sole others matches_own

omit [DecidableEq F] in
theorem clean_of_run {refused : Text → Bool} {url : Text} {found : List (Text × Text)}
    (called : plugin.run refused url = some (func, found)) :
    ∀ value ∈ found.map Prod.snd, Clean value := by
  obtain ⟨path, split, called⟩ := Option.bind_eq_some_iff.mp called
  obtain ⟨rule, matched⟩ := exists_of_dispatch called
  have whole : ∀ c ∈ (if path = [] then ['/'] else path), c = '/' ∨ solid c = true := by
    split_ifs
    · exact fun c member => Or.inl (List.mem_singleton.mp member)
    · exact solid_of_urlsplitPath split
  intro value member
  obtain ⟨filled, free, from_path⟩ := values_of_matchPieces matched value member
  refine ⟨filled, fun c there => ?_⟩
  exact (whole c (from_path c there)).resolve_left fun same => free (same ▸ there)

/-- The view which an object id was made for is called, with the same arguments, when they have
nothing in them which a URL is split at. -/
theorem run_url_for_iff (refused : Text → Bool) (base : plugin.base_url = [])
    (sole : plugin.rules.lookup func = some [rule]) (apart : plugin.Apart func rule)
    (call : rule.Called args kwargs) :
    ∃ url, plugin.url_for func args kwargs = some url ∧
      (plugin.run refused url = some (func, rule.bound args kwargs) ↔
        ∀ value ∈ (rule.bound args kwargs).map Prod.snd, Clean value) :=
  ⟨_, url_for_eq base sole call, clean_of_run, run_of_clean refused sole apart⟩

/-- The routes of a file have paths alone. -/
theorem base_url_ofRoutes {routes : List (F × String)} (made : ofRoutes routes = some plugin) :
    plugin.base_url = [] := by
  have kept (start : Plugin F) (there : routes.foldlM (fun plugin route =>
      (UrlRule.ofPattern route.2.toList).map (plugin.add_route route.1)) start = some plugin) :
      plugin.base_url = start.base_url := by
    clear made
    induction routes generalizing start with
    | nil =>
        cases there
        rfl
    | cons route rest ih =>
        obtain ⟨more, first, later⟩ := Option.bind_eq_some_iff.mp there
        obtain ⟨rule, -, rfl⟩ := Option.map_eq_some_iff.mp first
        exact ih (start.add_route route.1 rule) later
  exact kept _ made

instance (plugin : Plugin F) (func : F) (rule : UrlRule) : Decidable (plugin.Apart func rule) :=
  inferInstanceAs (Decidable (∀ entry ∈ plugin.rules, entry.1 ≠ func → ∀ other ∈ entry.2,
    Segment.apart rule.segments other.segments = true))

end Plugin

/-! The views of two of the plugins. -/

inductive BbcView where
  | root | root_stations | station_view | station_date_view | root_podcasts | podcast_view
deriving DecidableEq

def bbcRoutes : List (BbcView × String) :=
  [(.root, "/"), (.root_stations, "/root_stations"), (.station_view, "/station/<station_id>"),
    (.station_date_view, "/station/<station_id>/<year>/<month>/<day>"),
    (.root_podcasts, "/root_podcasts"), (.podcast_view, "/podcast/<podcast_id>")]

inductive QobuzView where
  | root | root_genres | genre_view | genre_view_type | genre_view_playlists | whats_new | featured
  | my_music | album_view | playlist_view | artist_view | similar_artists | favourite_tracks
  | favourite_artists | favourite_albums | favourite_playlists
deriving DecidableEq

def qobuzRoutes : List (QobuzView × String) :=
  [(.root, "/"), (.root_genres, "/root_genres"), (.genre_view, "/genre/<genre_id>"),
    (.genre_view_type, "/featured/<genre_id>/<type>"),
    (.genre_view_playlists, "/featured_playlists/<genre_id>"), (.whats_new, "/whats_new"),
    (.featured, "/featured/<content_type>"), (.my_music, "/my_music"),
    (.album_view, "/album/<album_id>"), (.playlist_view, "/playlist/<playlist_id>"),
    (.artist_view, "/artist/<artist_id>"), (.similar_artists, "/artist/<artist_id>/similar"),
    (.favourite_tracks, "/favourite_tracks"), (.favourite_artists, "/favourite_artists"),
    (.favourite_albums, "/favourite_albums"), (.favourite_playlists, "/favourite_playlists")]

def bbc : Plugin BbcView := (Plugin.ofRoutes bbcRoutes).get (by decide +kernel)

def qobuz : Plugin QobuzView := (Plugin.ofRoutes qobuzRoutes).get (by decide +kernel)

theorem bbc_apart : ∀ entry ∈ bbc.rules, ∀ rule ∈ entry.2, bbc.Apart entry.1 rule := by
  decide +kernel

theorem qobuz_apart : ∀ entry ∈ qobuz.rules, ∀ rule ∈ entry.2, qobuz.Apart entry.1 rule := by
  decide +kernel

theorem qobuz_base : qobuz.base_url = [] := Plugin.base_url_ofRoutes (Option.some_get _).symm

def artistRule : UrlRule :=
  (UrlRule.ofPattern "/artist/<artist_id>".toList).get (by decide +kernel)

theorem artistRule_sole : qobuz.rules.lookup .artist_view = some [artistRule] := by
  decide +kernel

theorem run_url_for_artist :
    ∃ url, qobuz.url_for .artist_view ["145383".toList] [] = some url ∧
      (qobuz.run (fun _ => false) url =
          some (.artist_view, artistRule.bound ["145383".toList] []) ↔
        ∀ value ∈ (artistRule.bound ["145383".toList] []).map Prod.snd, Clean value) :=
  Plugin.run_url_for_iff _ qobuz_base artistRule_sole
    (qobuz_apart _ (Dict.mem_of_lookup artistRule_sole) _ (List.mem_singleton.mpr rfl))
    (Or.inl ⟨rfl, by decide +kernel⟩)

end Upmpdcli.Routing
