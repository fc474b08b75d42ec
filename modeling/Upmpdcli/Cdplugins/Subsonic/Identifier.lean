import Mathlib.Data.List.Induction
import Upmpdcli.Lib.Base64
import Upmpdcli.Lib.Json
import Upmpdcli.Lib.MapM
import Upmpdcli.Lib.Utf8

set_option autoImplicit false

/- The object ids of the Subsonic plugin, which are made of item identifiers. -/
namespace Upmpdcli.Subsonic

abbrev Str := List Char

inductive ItemIdentifierKey
  | thingName
  | thingValue
  | genreName
  | pageNumber
  | albumId
  | offset
  | tagType
  | albumVersionPathBase64
  | radioName
  | songAsEntry
deriving DecidableEq

def ItemIdentifierKey.getName : ItemIdentifierKey → Str
  | thingName => "n".toList
  | thingValue => "v".toList
  | genreName => "g".toList
  | pageNumber => "p".toList
  | albumId => "a".toList
  | offset => "o".toList
  | tagType => "t".toList
  | albumVersionPathBase64 => "ap".toList
  | radioName => "rn".toList
  | songAsEntry => "sntr".toList

/-- An item identifier, with texts for its values. Its dictionary begins with the name and the
value of a thing. -/
structure ItemIdentifier where
  dict : List (Str × Str)
  distinct : (dict.map Prod.fst).Nodup
  keys : ∀ key ∈ dict.map Prod.fst, key ≠ []
  thing : ∃ name value rest, name ≠ [] ∧ value ≠ [] ∧
    dict = (ItemIdentifierKey.thingName.getName, name) ::
      (ItemIdentifierKey.thingValue.getName, value) :: rest

namespace ItemIdentifier

/-- `ItemIdentifier(name, value)`. -/
def new (name value : Str) : Option ItemIdentifier :=
  if filled : name ≠ [] ∧ value ≠ [] then
    some {
      dict := [(ItemIdentifierKey.thingName.getName, name),
        (ItemIdentifierKey.thingValue.getName, value)]
      distinct := (by decide : ["n".toList, "v".toList].Nodup)
      keys := (by decide : ∀ key ∈ ["n".toList, "v".toList], key ≠ [])
      thing := ⟨name, value, [], filled.1, filled.2, rfl⟩ }
  else none

/-- `__set`, which refuses a key which is there. -/
def setName (i : ItemIdentifier) (key value : Str) : Option ItemIdentifier :=
  if free : key ≠ [] ∧ key ∉ i.dict.map Prod.fst then
    some {
      dict := i.dict ++ [(key, value)]
      distinct := by
        rw [List.map_append, List.map_singleton, ← List.concat_eq_append]
        exact i.distinct.concat free.2
      keys := by
        intro other member
        rw [List.map_append, List.mem_append, List.map_singleton, List.mem_singleton] at member
        rcases member with old | rfl
        · exact i.keys other old
        · exact free.1
      thing := by
        obtain ⟨name, thing, rest, some_name, some_value, same⟩ := i.thing
        exact ⟨name, thing, rest ++ [(key, value)], some_name, some_value, by rw [same]; rfl⟩ }
  else none

def set (i : ItemIdentifier) (key : ItemIdentifierKey) (value : Str) : Option ItemIdentifier :=
  i.setName key.getName value

def get (i : ItemIdentifier) (key : ItemIdentifierKey) : Option Str := i.dict.lookup key.getName

/-- A turn of the loop of `from_dict`. -/
def addItem (i : ItemIdentifier) (item : Str × Str) : Option ItemIdentifier :=
  if item.1 ∈ i.dict.map Prod.fst then some i else i.setName item.1 item.2

def from_dict (id_dict : List (Str × Str)) : Option ItemIdentifier := do
  let thing_name ← id_dict.lookup ItemIdentifierKey.thingName.getName
  let thing_value ← id_dict.lookup ItemIdentifierKey.thingValue.getName
  let i ← new thing_name thing_value
  id_dict.foldlM addItem i

end ItemIdentifier

/-- `codec.encode`. -/
def encode (name : Str) : Str := Base64.encodeGroups (Utf8.encode name)

/-- `codec.decode`. The bytes of other characters are no digits either. -/
def decode (id : Str) : Option Str := (Base64.looseDecode id).bind Utf8.decodeStrict

/-- `html.escape`, with the quotes. -/
def escape (value : Str) : Str :=
  value.flatMap fun c =>
    if c = '&' then "&amp;".toList
    else if c = '<' then "&lt;".toList
    else if c = '>' then "&gt;".toList
    else if c = '"' then "&quot;".toList
    else if c = '\'' then "&#x27;".toList
    else [c]

def create_objid (objid id : Str) : Str := objid ++ '/' :: escape id

def create_id_from_identifier (identifier : ItemIdentifier) : Str :=
  encode (Json.dumps identifier.dict)

/-- `_g_myprefix`. -/
def myprefixStr : Str := "0$subsonic$".toList

/-- What `browse` comes to: the tags, or the handler for a tag or for an element, with the
identifier it is given. There may be no such handler. -/
inductive Served
  | tags
  | tag (handler : Option Str) (identifier : ItemIdentifier)
  | element (handler : Option Str) (identifier : ItemIdentifier)

def Served.identifier : Served → Option ItemIdentifier
  | tags => none
  | tag _ i => some i
  | element _ i => some i

/-- `browse`, up to the handler. `tags` and `elements` are the names which have one. What the
elements of the path decode to is only logged, and the last one is decoded again. -/
def browse (tags elements : List Str) (objid : Str) : Option Served := do
  if myprefixStr.isPrefixOf objid then
    let path_list := objid.splitOn '/'
    let _ ← (path_list.filter (· ≠ myprefixStr)).mapM decode
    let last ← path_list.getLast?
    if path_list.length = 1 ∧ last = myprefixStr then some .tags
    else
      let item_dict ← Json.loads (← decode last)
      let identifier ← ItemIdentifier.from_dict item_dict
      let thing_name ← identifier.get .thingName
      let thing_value ← identifier.get .thingValue
      if thing_name = "tag".toList then
        some (.tag (if thing_value ∈ tags then some thing_value else none) identifier)
      else some (.element (if thing_name ∈ elements then some thing_name else none) identifier)
  else none

/-- The object id of a path of identifiers. -/
def objidOf (identifiers : List ItemIdentifier) : Str :=
  identifiers.foldl (fun objid i => create_objid objid (create_id_from_identifier i)) myprefixStr

/-- The text which an identifier becomes. -/
def json (i : ItemIdentifier) : Str := Json.dumps i.dict

/-- Some third character of the text is a question mark. -/
def ThirdQuestion (i : ItemIdentifier) : Prop := ∃ k, k % 3 = 2 ∧ (json i)[k]? = some '?'

section Codes

variable {i : ItemIdentifier} {c : Char}

theorem printable_json (member : c ∈ json i) : 0x20 ≤ c.toNat ∧ c.toNat < 0x7f := by
  have printable := Json.printable_dumps i.dict c member
  unfold Json.printable at printable
  simp only [Bool.and_eq_true, decide_eq_true_eq] at printable
  omega

theorem ascii_json (i : ItemIdentifier) : ∀ c ∈ json i, c.toNat < 0x80 := by
  intro c member
  have printable := printable_json member
  omega

theorem bytes_json (i : ItemIdentifier) :
    Utf8.encode (json i) = (json i).map fun c => UInt8.ofNat c.toNat :=
  Utf8.encode_ascii (ascii_json i)

theorem bytes_lt (i : ItemIdentifier) : ∀ byte ∈ Utf8.encode (json i), byte < 0x7f := by
  rw [bytes_json]
  intro byte member
  obtain ⟨c, of_json, rfl⟩ := List.mem_map.mp member
  have printable := printable_json of_json
  show c.toNat % 256 < 0x7f
  omega

theorem ofNat_eq_question_iff (printable : c.toNat < 0x7f) :
    UInt8.ofNat c.toNat = 0x3f ↔ c = '?' := by
  have byte : (UInt8.ofNat c.toNat).toNat = c.toNat :=
    Nat.mod_eq_of_lt (Nat.lt_trans printable (by decide))
  rw [← UInt8.toNat_inj, byte]
  exact @Char.toNat_inj c '?'

theorem questionThird_iff (i : ItemIdentifier) :
    Base64.QuestionThird (Utf8.encode (json i)) ↔ ThirdQuestion i := by
  unfold Base64.QuestionThird ThirdQuestion
  refine exists_congr fun k => and_congr_right fun _ => ?_
  rw [bytes_json, List.getElem?_map]
  cases there : (json i)[k]? with
  | none => simp
  | some c =>
      have printable := printable_json (List.mem_of_getElem? there)
      rw [Option.map_some, Option.some.injEq, Option.some.injEq, ofNat_eq_question_iff printable.2]

/-- A code is made of digits of base 64. -/
theorem mem_code (member : c ∈ create_id_from_identifier i) : c ∈ '=' :: Base64.alphabet :=
  Base64.mem_encodeGroups member

theorem escape_code (i : ItemIdentifier) :
    escape (create_id_from_identifier i) = create_id_from_identifier i := by
  have plain : ('=' :: Base64.alphabet).all fun c =>
      c ≠ '&' ∧ c ≠ '<' ∧ c ≠ '>' ∧ c ≠ '"' ∧ c ≠ '\'' := by
    decide
  unfold escape
  rw [List.flatMap_congr fun c member => ?_, List.flatMap_singleton']
  obtain ⟨ampersand, less, greater, quote, apostrophe⟩ :=
    of_decide_eq_true (List.all_eq_true.mp plain c (mem_code member))
  rw [if_neg ampersand, if_neg less, if_neg greater, if_neg quote, if_neg apostrophe]

/-- A name is decoded from its code. -/
theorem decode_encoded (name : Str) : decode (encode name) = some name := by
  unfold decode encode
  rw [Base64.looseDecode_encodeGroups, Option.bind_some]
  exact Utf8.decodeStrict_encode name

theorem decode_code (i : ItemIdentifier) : decode (create_id_from_identifier i) = some (json i) :=
  decode_encoded (json i)

theorem slash_code (i : ItemIdentifier) :
    '/' ∈ create_id_from_identifier i ↔ ThirdQuestion i :=
  (Base64.slash_encodeGroups (bytes_lt i)).1.trans (questionThird_iff i)

/-- What comes before the first slash of a code cannot be decoded. -/
theorem decode_before_slash (broken : ThirdQuestion i) :
    decode ((create_id_from_identifier i).takeWhile (· ≠ '/')) = none := by
  have cut := (Base64.slash_encodeGroups (bytes_lt i)).2 ((slash_code i).mpr broken)
  exact congrArg (Option.bind · Utf8.decodeStrict) cut

end Codes

section Paths

variable {i : ItemIdentifier} {identifiers : List ItemIdentifier}

/-- The elements of a path which come from an identifier. -/
def pathElements (i : ItemIdentifier) : List Str := (create_id_from_identifier i).splitOn '/'

theorem pathElements_whole (whole : ¬ ThirdQuestion i) :
    pathElements i = [create_id_from_identifier i] :=
  List.splitOn_eq_singleton fun member => whole ((slash_code i).mp member)

theorem takeWhile_mem_pathElements (broken : ThirdQuestion i) :
    (create_id_from_identifier i).takeWhile (· ≠ '/') ∈ pathElements i := by
  obtain ⟨before, behind, same, absent⟩ :=
    List.eq_append_cons_of_mem ((slash_code i).mpr broken)
  have other : ∀ c ∈ before, decide (c ≠ '/') = true := by
    intro c member
    exact decide_eq_true fun slash => absent (slash ▸ member)
  have first : (create_id_from_identifier i).takeWhile (· ≠ '/') = before := by
    rw [same, List.takeWhile_append_of_pos other, List.takeWhile_cons_of_neg (by decide),
      List.append_nil]
  rw [first, pathElements, same, List.splitOn_append_cons_self_of_not_mem absent]
  exact List.mem_cons_self

theorem objidOf_concat (parents : List ItemIdentifier) (identifier : ItemIdentifier) :
    objidOf (parents ++ [identifier]) =
      create_objid (objidOf parents) (create_id_from_identifier identifier) :=
  List.foldl_append

theorem prefix_objidOf (identifiers : List ItemIdentifier) : myprefixStr <+: objidOf identifiers := by
  induction identifiers using List.reverseRecOn with
  | nil => exact List.prefix_refl myprefixStr
  | append_singleton parents identifier ih =>
      rw [objidOf_concat]
      exact ih.trans (List.prefix_append _ _)

theorem splitOn_objidOf (identifiers : List ItemIdentifier) :
    (objidOf identifiers).splitOn '/' = myprefixStr :: identifiers.flatMap pathElements := by
  induction identifiers using List.reverseRecOn with
  | nil => exact List.splitOn_eq_singleton (by decide : '/' ∉ myprefixStr)
  | append_singleton parents identifier ih =>
      rw [objidOf_concat, create_objid, List.splitOn_append_cons_self, ih, escape_code,
        List.flatMap_append, List.flatMap_singleton, List.cons_append, pathElements]

/-- No text of digits of base 64 is the prefix, which has a dollar in it. -/
theorem ne_myprefixStr {path : Str} (digits : ∀ c ∈ path, c ∈ '=' :: Base64.alphabet) :
    path ≠ myprefixStr := by
  rintro rfl
  exact absurd (digits '$' (by decide)) (by decide)

theorem before_slash_ne_myprefixStr (i : ItemIdentifier) :
    (create_id_from_identifier i).takeWhile (· ≠ '/') ≠ myprefixStr :=
  ne_myprefixStr fun _ member => mem_code ((List.takeWhile_prefix _).subset member)

/-- With a slash in some code the elements of the path are not all decoded. -/
theorem mapM_decode_broken (member : i ∈ identifiers) (broken : ThirdQuestion i) :
    ((myprefixStr :: identifiers.flatMap pathElements).filter (· ≠ myprefixStr)).mapM decode =
      none := by
  apply MapM.eq_none_iff.mpr
  refine ⟨_, List.mem_filter.mpr ⟨List.mem_cons_of_mem _ ?_, ?_⟩, decode_before_slash broken⟩
  · exact List.mem_flatMap.mpr ⟨i, member, takeWhile_mem_pathElements broken⟩
  · exact decide_eq_true (before_slash_ne_myprefixStr i)

theorem pathElements_all_whole (whole : ∀ i ∈ identifiers, ¬ ThirdQuestion i) :
    identifiers.flatMap pathElements = identifiers.map create_id_from_identifier := by
  rw [List.flatMap_congr fun i member => pathElements_whole (whole i member), List.map_eq_flatMap]

theorem mapM_decode_whole (identifiers : List ItemIdentifier) :
    ∃ texts, ((myprefixStr :: identifiers.map create_id_from_identifier).filter
      (· ≠ myprefixStr)).mapM decode = some texts := by
  apply MapM.exists_eq_some
  intro path member failed
  obtain ⟨there, other⟩ := List.mem_filter.mp member
  rcases List.mem_cons.mp there with rfl | code
  · exact of_decide_eq_true other rfl
  · obtain ⟨i, -, rfl⟩ := List.mem_map.mp code
    rw [decode_code] at failed
    cases failed

end Paths

namespace ItemIdentifier

theorem ext {i j : ItemIdentifier} (same : i.dict = j.dict) : i = j := by
  cases i
  cases j
  cases same
  rfl

theorem dict_setName {i : ItemIdentifier} {key : Str} (value : Str) (some_key : key ≠ [])
    (free : key ∉ i.dict.map Prod.fst) :
    ∃ j, i.setName key value = some j ∧ j.dict = i.dict ++ [(key, value)] := by
  unfold setName
  rw [dif_pos ⟨some_key, free⟩]
  exact ⟨_, rfl, rfl⟩

theorem foldlM_addItem (rest : List (Str × Str)) (i : ItemIdentifier)
    (keys : ∀ key ∈ rest.map Prod.fst, key ≠ [])
    (distinct : ((i.dict ++ rest).map Prod.fst).Nodup) :
    ∃ j, rest.foldlM addItem i = some j ∧ j.dict = i.dict ++ rest := by
  induction rest generalizing i with
  | nil => exact ⟨i, rfl, (List.append_nil _).symm⟩
  | cons item later ih =>
      have free : item.1 ∉ i.dict.map Prod.fst := by
        rw [List.map_append, List.map_cons] at distinct
        exact fun member => (List.nodup_append.mp distinct).2.2 _ member _ List.mem_cons_self rfl
      obtain ⟨next, added, longer⟩ := dict_setName item.2 (keys _ List.mem_cons_self) free
      obtain ⟨j, done, same⟩ := ih next (fun key member => keys key (List.mem_cons_of_mem _ member))
        (by rw [longer, List.append_assoc]; exact distinct)
      refine ⟨j, ?_, by rw [same, longer, List.append_assoc]; rfl⟩
      rw [List.foldlM_cons, addItem, if_neg free, added]
      exact done

/-- An identifier comes back from its own dictionary. -/
theorem from_dict_dict (i : ItemIdentifier) : from_dict i.dict = some i := by
  obtain ⟨name, value, rest, some_name, some_value, same⟩ := i.thing
  have named : i.dict.lookup ItemIdentifierKey.thingName.getName = some name := by
    rw [same]
    rfl
  have valued : i.dict.lookup ItemIdentifierKey.thingValue.getName = some value := by
    rw [same]
    rfl
  obtain ⟨first, made, begun⟩ : ∃ first, new name value = some first ∧
      first.dict = [(ItemIdentifierKey.thingName.getName, name),
        (ItemIdentifierKey.thingValue.getName, value)] := by
    unfold new
    rw [dif_pos ⟨some_name, some_value⟩]
    exact ⟨_, rfl, rfl⟩
  have whole : first.dict ++ rest = i.dict := by rw [begun, same]; rfl
  obtain ⟨j, added, equal⟩ := foldlM_addItem rest first
    (fun key member => i.keys key (by rw [← whole, List.map_append]; exact List.mem_append_right _ member))
    (by rw [whole]; exact i.distinct)
  have again : i.dict.foldlM addItem first = some j := by
    -- the two items of the thing are there from the beginning
    rw [same, List.foldlM_cons, addItem, if_pos (by rw [begun]; exact List.mem_cons_self)]
    show ((_, value) :: rest).foldlM addItem first = some j
    rw [List.foldlM_cons, addItem,
      if_pos (by rw [begun]; exact List.mem_cons_of_mem _ List.mem_cons_self)]
    exact added
  unfold from_dict
  rw [named, valued]
  show (new name value).bind (fun first => i.dict.foldlM addItem first) = some i
  rw [made, Option.bind_some, again, ext (equal.trans whole)]

end ItemIdentifier

/-- The last element of the path is the code of the identifier, which is read back. -/
theorem browse_whole {parents : List ItemIdentifier} {identifier : ItemIdentifier}
    (whole : ∀ i ∈ parents ++ [identifier], ¬ ThirdQuestion i) (tags elements : List Str) :
    ∃ served, browse tags elements
        (create_objid (objidOf parents) (create_id_from_identifier identifier)) = some served ∧
      served.identifier = some identifier := by
  obtain ⟨texts, decoded⟩ := mapM_decode_whole (parents ++ [identifier])
  have last : (myprefixStr :: (parents ++ [identifier]).map create_id_from_identifier).getLast? =
      some (create_id_from_identifier identifier) := by
    rw [List.map_append, List.map_singleton, ← List.cons_append, List.getLast?_concat]
  have longer :
      (myprefixStr :: (parents ++ [identifier]).map create_id_from_identifier).length ≠ 1 := by
    simp
  have read : Json.loads (json identifier) = some identifier.dict :=
    Json.loads_dumps identifier.distinct
  obtain ⟨name, named⟩ : ∃ name, identifier.get .thingName = some name := by
    obtain ⟨name, value, rest, -, -, same⟩ := identifier.thing
    exact ⟨name, by rw [ItemIdentifier.get, same]; rfl⟩
  obtain ⟨value, valued⟩ : ∃ value, identifier.get .thingValue = some value := by
    obtain ⟨name, value, rest, -, -, same⟩ := identifier.thing
    exact ⟨value, by rw [ItemIdentifier.get, same]; rfl⟩
  rw [← objidOf_concat]
  unfold browse
  rw [if_pos (List.isPrefixOf_iff_prefix.mpr (prefix_objidOf _)), splitOn_objidOf,
    pathElements_all_whole whole]
  simp only [decoded, last, longer, decode_code, read, ItemIdentifier.from_dict_dict, named, valued,
    false_and, if_false, Option.bind_eq_bind, Option.bind_some]
  split
  · exact ⟨_, rfl, rfl⟩
  · exact ⟨_, rfl, rfl⟩

/-- Browsing the object id of a path of identifiers gets to the handler with the last one exactly
when no third character of their texts is a question mark. -/
theorem browse_objid_iff (tags elements : List Str) (parents : List ItemIdentifier)
    (identifier : ItemIdentifier) :
    (∃ served, browse tags elements
        (create_objid (objidOf parents) (create_id_from_identifier identifier)) = some served ∧
      served.identifier = some identifier) ↔
    ∀ i ∈ parents ++ [identifier], ¬ ThirdQuestion i := by
  constructor
  · rintro ⟨served, browsed, -⟩ i member broken
    rw [← objidOf_concat] at browsed
    unfold browse at browsed
    rw [if_pos (List.isPrefixOf_iff_prefix.mpr (prefix_objidOf _)), splitOn_objidOf] at browsed
    simp only [mapM_decode_broken member broken] at browsed
    cases browsed
  · exact fun whole => browse_whole whole tags elements

/-- The genre `Rock?`, whose text has the question mark at its place 20. -/
def questionGenre : ItemIdentifier where
  dict := [(ItemIdentifierKey.thingName.getName, "gnr".toList),
    (ItemIdentifierKey.thingValue.getName, "Rock?".toList)]
  distinct := (by decide : ["n".toList, "v".toList].Nodup)
  keys := (by decide : ∀ key ∈ ["n".toList, "v".toList], key ≠ [])
  thing := ⟨"gnr".toList, "Rock?".toList, [], by decide, by decide, rfl⟩

theorem not_browse_questionGenre :
    ¬ ∃ served, browse [] ["gnr".toList]
        (create_objid (objidOf []) (create_id_from_identifier questionGenre)) = some served ∧
      served.identifier = some questionGenre := by
  rintro ⟨served, browsed, -⟩
  have raised : (browse [] ["gnr".toList]
      (create_objid (objidOf []) (create_id_from_identifier questionGenre))).isNone = true := by
    decide
  rw [browsed] at raised
  cases raised

end Upmpdcli.Subsonic
