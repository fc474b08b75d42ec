import Upmpdcli.Lib.Decimal
import Upmpdcli.Lib.Xml
import Upmpdcli.UpSong

set_option autoImplicit false

/- What an XML parser finds in the DIDL output of a song. -/
namespace Upmpdcli

/-- The characters of numbers and of times. -/
def Ordinary (c : Char) : Prop := c.isDigit = true ∨ c ∈ [':', '.', '-']

/-- What is documented of the functions of libupnpp: the quoting of the five special characters, and
durations made of numbers. -/
structure SoapHelp.Documented (soap : SoapHelp) : Prop where
  quotes : ∀ text, (soap.xmlQuote text).toList = Xml.quote text.toList
  durations : ∀ ms, ∀ c ∈ (soap.upnpduration ms).toList, Ordinary c

namespace UpSong

/-- An element inside the one of the song. The claim about some of them is that their text stays as
it is; of the others only the ends of lines may change. -/
structure Field where
  name : String
  attributes : Xml.Attributes := []
  text : String
  exact : Bool := true

namespace Field

def shown (field : Field) : Xml.Str :=
  if field.exact then field.text.toList else Xml.lines field.text.toList

/-- The field as a part of the content of an element. -/
def before (field : Field) (rest : Xml.Content) : Xml.Content :=
  .element field.name.toList field.attributes (.ofText field.shown) rest

/-- A field for a text which is not empty. -/
def optional (name text : String) (exact : Bool) : List Field :=
  if text = "" then [] else [{ name, text, exact }]

end Field

def intAttribute (name : String) (value : Int) : Xml.Attributes :=
  if value = 0 then [] else [(name.toList, (toString value).toList)]

def protocolInfo (mime : String) : Xml.Str :=
  "http-get:*:".toList ++ (mime.toList ++ ":* ".toList)

/-- The attributes of a resource. -/
def resAttributes (soap : SoapHelp) (res : Res) : Xml.Attributes :=
  (if res.duration_secs = 0 then [] else
    [("duration".toList, (soap.upnpduration (wrap32 (res.duration_secs * 1000))).toList)]) ++
  intAttribute "size" res.size ++ intAttribute "bitrate" res.bitrate ++
  intAttribute "sampleFrequency" res.samplefreq ++
  intAttribute "bitsPerSample" res.bitsPerSample ++
  intAttribute "nrAudioChannels" res.channels ++
  (if res.mime = "" then [] else [("protocolInfo".toList, protocolInfo res.mime)])

def resField (soap : SoapHelp) (res : Res) : Field where
  name := "res"
  attributes := resAttributes soap res
  text := res.uri

/-- The class, and the values which only a container or only an item has. -/
def kindFields (song : UpSong) (soap : SoapHelp) (noresource : Bool) : List Field :=
  if song.iscontainer then
    { name := "upnp:class",
      text := if song.upnpClass = "" then "object.container" else song.upnpClass } ::
    Field.optional "upnp:userAnnotation" song.tracknum true
  else
    { name := "upnp:class",
      text := if song.upnpClass = "" then "object.item.audioItem.musicTrack"
        else song.upnpClass } ::
    (Field.optional "upnp:album" song.album true ++
      (Field.optional "upnp:originalTrackNumber" song.tracknum true ++
        if noresource then [] else (song.rsrc :: song.resources).map (resField soap)))

/-- The values of a song, in the order in which they are printed. -/
def fields (song : UpSong) (soap : SoapHelp) (noresource : Bool) : List Field :=
  [{ name := "dc:title", text := song.title }] ++
  (if song.id = "" then [{ name := "orig", text := "mpd" }] else []) ++
  song.kindFields soap noresource ++
  Field.optional "upnp:genre" song.genre false ++
  Field.optional "dc:creator" song.artist true ++
  Field.optional "upnp:artist" song.artist true ++
  Field.optional "dc:date" song.date false ++
  Field.optional "dc:description" song.dcdescription false ++
  Field.optional "upnp:albumArtURI" song.artUri false

def settings (song : UpSong) : Xml.Attributes :=
  [("restricted".toList, ['1']), ("searchable".toList, if song.searchable then ['1'] else ['0'])]

def rootAttributes (song : UpSong) : Xml.Attributes :=
  (if song.id = "" then [] else [("id".toList, song.id.toList)]) ++
  ((if song.parentid = "" then [] else [("parentID".toList, song.parentid.toList)]) ++
  song.settings)

def typetag (song : UpSong) : String := if song.iscontainer then "container" else "item"

/-- The element of a song: its attributes, its fields and the fragment. -/
def root (soap : SoapHelp) (song : UpSong) (noresource : Bool) (fragment : Xml.Content) :
    Xml.Content :=
  .element song.typetag.toList song.rootAttributes
    ((song.fields soap noresource).foldr Field.before fragment) .nil

/-- How a field is printed. -/
def Field.source (field : Field) : Xml.Str :=
  '<' :: (field.name.toList ++ field.attributes.flatMap Xml.printed ++ ['>']) ++
    (Xml.quote field.text.toList ++ '<' :: '/' :: (field.name.toList ++ ['>']))

/-- The start tag as it is printed, where the quote behind the id stands before `parentID`. -/
def startSource (song : UpSong) : Xml.Str :=
  (s!"<{song.typetag}" ++
  (if song.id = "" then "" else s!" id=\"{song.id}") ++
  (if song.parentid = "" then "" else s!"\" parentID=\"{song.parentid}\"") ++
  s!" restricted=\"1\" searchable=\"{if song.searchable then 1 else 0}\">").toList

section Source

variable {soap : SoapHelp}

theorem toString_string (text : String) : toString text = text := rfl

theorem toList_resAttribute (value : Int) (name : String) :
    (resAttribute value name).toList = (intAttribute name value).flatMap Xml.printed := by
  unfold resAttribute intAttribute
  split
  · rfl
  · simp [toString_string, Xml.printed]

variable (documented : soap.Documented)
include documented

theorem toList_upnpXml (field tag : String) (exact : Bool) :
    (upnpXml soap field tag).toList = (Field.optional tag field exact).flatMap Field.source := by
  unfold upnpXml Field.optional
  split
  · rfl
  · simp [Field.source, toString_string, documented.quotes]

theorem toList_upnpXmlDefault (field tag default : String) :
    (upnpXmlDefault soap field tag default).toList =
      Field.source { name := tag, text := if field = "" then default else field } := by
  simp [upnpXmlDefault, Field.source, toString_string, documented.quotes]

theorem toList_didlPrintResource (res : Res) :
    (didlPrintResource soap res).toList = (resField soap res).source := by
  have duration : (if res.duration_secs = 0 then "" else
      s!" duration=\"{soap.upnpduration (wrap32 (res.duration_secs * 1000))}\"").toList =
      (if res.duration_secs = 0 then [] else
        [("duration".toList,
          (soap.upnpduration (wrap32 (res.duration_secs * 1000))).toList)]).flatMap
            Xml.printed := by
    split
    · rfl
    · simp [toString_string, Xml.printed]
  have mime : (if res.mime = "" then "" else
      s!" protocolInfo=\"http-get:*:{res.mime}:* \"").toList =
      (if res.mime = "" then [] else
        [("protocolInfo".toList, protocolInfo res.mime)]).flatMap Xml.printed := by
    split
    · rfl
    · have opened : " protocolInfo=\"http-get:*:".toList =
          ' ' :: ("protocolInfo".toList ++ '=' :: '"' :: "http-get:*:".toList) := by simp
      have closed : ":* \"".toList = ":* ".toList ++ ['"'] := by simp
      simp only [toString_string, String.toList_append]
      rw [opened, closed]
      unfold protocolInfo Xml.printed
      generalize "protocolInfo".toList = name
      generalize "http-get:*:".toList = before
      generalize ":* ".toList = behind
      simp
  unfold didlPrintResource resField resAttributes Field.source
  simp only [String.toList_append, toList_resAttribute, List.flatMap_append]
  rw [duration, mime]
  have opened : "<res".toList = '<' :: "res".toList := by simp
  have closed : "</res>".toList = '<' :: '/' :: ("res".toList ++ ['>']) := by simp
  have greater : ">".toList = ['>'] := by simp
  simp only [toString_string, documented.quotes, opened, closed, greater, List.append_assoc,
    List.cons_append]

theorem toList_resources (ss : String) (resources : List Res) :
    (resources.foldl (fun ss res => ss ++ didlPrintResource soap res) ss).toList =
      ss.toList ++ (resources.map (resField soap)).flatMap Field.source := by
  induction resources generalizing ss with
  | nil => simp
  | cons res resources ih =>
      rw [List.foldl_cons, ih, String.toList_append, toList_didlPrintResource documented,
        List.map_cons, List.flatMap_cons, List.append_assoc]

theorem toList_kind (song : UpSong) (noresource : Bool) :
    (if song.iscontainer then
      upnpXmlDefault soap song.upnpClass "upnp:class" "object.container" ++
      (if song.tracknum = "" then "" else
        s!"<upnp:userAnnotation>{soap.xmlQuote song.tracknum}</upnp:userAnnotation>")
    else
      upnpXmlDefault soap song.upnpClass "upnp:class" "object.item.audioItem.musicTrack" ++
      upnpXml soap song.album "upnp:album" ++
      upnpXml soap song.tracknum "upnp:originalTrackNumber" ++
      (if noresource then "" else
        (song.rsrc :: song.resources).foldl
          (fun ss res => ss ++ didlPrintResource soap res) "")).toList =
      (song.kindFields soap noresource).flatMap Field.source := by
  unfold kindFields
  split
  · rw [String.toList_append, toList_upnpXmlDefault documented, List.flatMap_cons]
    refine congrArg _ ?_
    unfold Field.optional
    split
    · rfl
    · simp [Field.source, toString_string, documented.quotes]
  · simp only [String.toList_append, toList_upnpXmlDefault documented,
      toList_upnpXml documented _ _ true, List.flatMap_cons, List.flatMap_append,
      List.append_assoc]
    refine congrArg _ (congrArg _ (congrArg _ ?_))
    split
    · rfl
    · rw [toList_resources documented]
      rfl

/-- The output: a start tag, the fields, the fragment and the end tag. -/
theorem toList_didl (song : UpSong) (noresource : Bool) :
    (song.didl soap noresource).toList = song.startSource ++
      ((song.fields soap noresource).flatMap Field.source ++ (song.didlfrag.toList ++
        '<' :: '/' :: (song.typetag.toList ++ ['>']))) := by
  have title : (s!"<dc:title>{soap.xmlQuote song.title}</dc:title>").toList =
      [{ name := "dc:title", text := song.title }].flatMap Field.source := by
    simp [Field.source, toString_string, documented.quotes]
  have orig : (if song.id = "" then origMpd else "").toList =
      (if song.id = "" then [{ name := "orig", text := "mpd" }] else []).flatMap Field.source := by
    split
    · decide
    · rfl
  have close : (s!"</{song.typetag}>").toList = '<' :: '/' :: (song.typetag.toList ++ ['>']) := by
    simp [toString_string]
  have kind := toList_kind documented song noresource
  unfold didl fields startSource
  dsimp only
  rw [← typetag]
  simp only [String.toList_append] at title close kind ⊢
  rw [title, orig, kind, close, toList_upnpXml documented _ _ false,
    toList_upnpXml documented _ _ true, toList_upnpXml documented _ _ true,
    toList_upnpXml documented _ _ false, toList_upnpXml documented _ _ false,
    toList_upnpXml documented _ _ false]
  simp only [List.flatMap_append, List.append_assoc]

end Source

/-- The resources which are printed. -/
def printedResources (song : UpSong) (noresource : Bool) : List Res :=
  if song.iscontainer ∨ noresource then [] else song.rsrc :: song.resources

/-- The texts which are printed inside quotes. -/
def attributeTexts (song : UpSong) (noresource : Bool) : List String :=
  song.id :: song.parentid :: (song.printedResources noresource).map Res.mime

/-- The texts which a parser has to find as they are. -/
def exactTexts (song : UpSong) (noresource : Bool) : List String :=
  [song.title, song.upnpClass, song.tracknum, song.artist] ++
  (if song.iscontainer then [] else [song.album]) ++
  (song.printedResources noresource).map Res.uri

def otherTexts (song : UpSong) : List String :=
  [song.genre, song.date, song.dcdescription, song.artUri]

section Fields

variable {soap : SoapHelp} {song : UpSong} {noresource : Bool}

theorem forall_optional {P : Field → Prop} {name text : String} {exact : Bool} :
    (∀ field ∈ Field.optional name text exact, P field) ↔
      (text ≠ "" → P { name, text, exact }) := by
  unfold Field.optional
  split
  · rename_i none
    simp [none]
  · rename_i some_text
    simp [some_text]

/-- A property of the texts of all the fields, which the texts of the plugin's own have. -/
theorem forall_fields {Q : String → Bool → Prop} (none : ∀ exact, Q "" exact) (mpd : Q "mpd" true)
    (container : Q "object.container" true) (track : Q "object.item.audioItem.musicTrack" true) :
    (∀ field ∈ song.fields soap noresource, Q field.text field.exact) ↔
      (∀ text ∈ song.exactTexts noresource, Q text true) ∧
        ∀ text ∈ song.otherTexts, Q text false := by
  have optional : ∀ name text exact, (∀ field ∈ Field.optional name text exact,
      Q field.text field.exact) ↔ Q text exact := by
    intro name text exact
    rw [forall_optional]
    by_cases empty : text = ""
    · simp [empty, none]
    · simp [empty]
  have default : ∀ text, Q text true →
      (Q (if song.upnpClass = "" then text else song.upnpClass) true ↔ Q song.upnpClass true) := by
    intro text of_text
    split
    · rename_i empty
      rw [empty]
      exact iff_of_true of_text (none true)
    · rfl
  have orig : ∀ field ∈ (if song.id = "" then [{ name := "orig", text := "mpd" }] else [] :
      List Field), Q field.text field.exact := by
    split
    · simpa using mpd
    · simp
  unfold fields exactTexts otherTexts kindFields printedResources
  by_cases kind : song.iscontainer
  · simp [kind, optional, default _ container, or_imp, forall_and]
    tauto
  · by_cases without : noresource
    · simp [kind, without, optional, default _ track, or_imp, forall_and]
      tauto
    · simp [kind, without, optional, default _ track, or_imp, forall_and, resField]
      tauto

/-- Only the resources have attributes. -/
theorem forall_attributes {P : Xml.Attributes → Prop} (none : P []) :
    (∀ field ∈ song.fields soap noresource, P field.attributes) ↔
      ∀ res ∈ song.printedResources noresource, P (resAttributes soap res) := by
  have optional : ∀ name text exact, (∀ field ∈ Field.optional name text exact,
      P field.attributes) ↔ True := by
    intro name text exact
    rw [forall_optional]
    simp [none]
  have orig : ∀ field ∈ (if song.id = "" then [{ name := "orig", text := "mpd" }] else [] :
      List Field), P field.attributes := by
    split
    · simpa using none
    · simp
  unfold fields kindFields printedResources
  by_cases kind : song.iscontainer
  · simp [kind, optional, none, or_imp, forall_and]
  · by_cases without : noresource
    · simp [kind, without, optional, none, or_imp, forall_and]
    · simp [kind, without, optional, none, or_imp, forall_and, resField]

def fieldNames : List String :=
  ["dc:title", "orig", "upnp:class", "upnp:userAnnotation", "upnp:album",
    "upnp:originalTrackNumber", "res", "upnp:genre", "dc:creator", "upnp:artist", "dc:date",
    "dc:description", "upnp:albumArtURI"]

theorem name_mem_fieldNames : ∀ field ∈ song.fields soap noresource, field.name ∈ fieldNames := by
  unfold fields kindFields fieldNames
  by_cases kind : song.iscontainer
  · simp [kind, forall_optional, or_imp, forall_and]
  · by_cases without : noresource
    · simp [kind, without, forall_optional, or_imp, forall_and]
    · simp [kind, without, forall_optional, or_imp, forall_and, resField]

theorem isName_fieldNames : ∀ name ∈ fieldNames, Xml.isName name.toList := by
  decide

def resAttributeNames : List Xml.Str :=
  ["duration".toList, "size".toList, "bitrate".toList, "sampleFrequency".toList,
    "bitsPerSample".toList, "nrAudioChannels".toList, "protocolInfo".toList]

theorem sublist_resAttributeNames (res : Res) :
    ((resAttributes soap res).map Prod.fst).Sublist resAttributeNames := by
  have int : ∀ name value, ((intAttribute name value).map Prod.fst).Sublist [name.toList] := by
    intro name value
    unfold intAttribute
    split
    · exact List.nil_sublist _
    · exact List.Sublist.refl _
  have one : ∀ (c : Prop) [Decidable c] (name value : Xml.Str),
      ((if c then [] else [(name, value)]).map Prod.fst).Sublist [name] := by
    intro c _ name value
    split
    · exact List.nil_sublist _
    · exact List.Sublist.refl _
  unfold resAttributes
  simp only [List.map_append]
  exact (((((((one _ _ _).append (int _ _)).append (int _ _)).append (int _ _)).append
    (int _ _)).append (int _ _)).append (one _ _ _))

theorem nodup_resAttributeNames : resAttributeNames.Nodup := by decide

theorem isName_resAttributeNames : ∀ name ∈ resAttributeNames, Xml.isName name := by decide

end Fields

section Values

theorem ordinary_toString (value : Int) : ∀ c ∈ (toString value).toList, Ordinary c := by
  have nat : ∀ n : Nat, ∀ c ∈ n.repr.toList, Ordinary c := by
    intro n c member
    rw [Nat.toList_repr] at member
    exact .inl (Nat.isDigit_of_mem_toDigits (by decide) (by decide) member)
  rw [Int.toString_eq_repr, Int.repr_eq_if]
  split
  · exact nat _
  · intro c member
    rw [String.toList_append, List.mem_append] at member
    rcases member with sign | digit
    · refine .inr ?_
      simp only [String.reduceToList, List.mem_singleton] at sign
      simp [sign]
    · exact nat _ c digit

theorem plain_of_ordinary {text : Xml.Str} (ordinary : ∀ c ∈ text, Ordinary c) :
    Xml.Plain text := by
  intro c member special
  simp only [List.mem_cons, List.not_mem_nil, or_false] at special
  rcases ordinary c member with digit | sign
  · rcases special with rfl | rfl | rfl | rfl | rfl | rfl <;> exact absurd digit (by decide)
  · rcases special with rfl | rfl | rfl | rfl | rfl | rfl <;> exact absurd sign (by decide)

theorem legal_of_ordinary {text : Xml.Str} (ordinary : ∀ c ∈ text, Ordinary c) :
    text.all Xml.legal := by
  rw [List.all_eq_true]
  intro c member
  rcases ordinary c member with digit | sign
  · obtain ⟨-, low, high⟩ := Decimal.toNat_of_isDigit digit
    unfold Xml.legal
    have some_code : (0x20 ≤ c.toNat && c.toNat ≠ 0xfffe && c.toNat ≠ 0xffff) = true := by
      simp only [Bool.and_eq_true, decide_eq_true_eq]
      omega
    rw [some_code, Bool.or_true]
  · simp only [List.mem_cons, List.not_mem_nil, or_false] at sign
    rcases sign with rfl | rfl | rfl <;> decide

theorem plain_protocolInfo (mime : String) :
    Xml.Plain (protocolInfo mime) ↔ Xml.Plain mime.toList := by
  have before : Xml.Plain "http-get:*:".toList := by decide
  have behind : Xml.Plain ":* ".toList := by decide
  unfold protocolInfo
  constructor
  · intro plain c member
    exact plain c (List.mem_append_right _ (List.mem_append_left _ member))
  · intro plain c member
    rcases List.mem_append.mp member with first | rest
    · exact before c first
    · rcases List.mem_append.mp rest with of_mime | last
      · exact plain c of_mime
      · exact behind c last

variable {soap : SoapHelp} (documented : soap.Documented)
include documented

/-- A property of the values of the attributes of a resource, which the numbers have. -/
theorem forall_resAttributes {P : Xml.Str → Prop}
    (numbers : ∀ text : Xml.Str, (∀ c ∈ text, Ordinary c) → P text) (res : Res) :
    (∀ att ∈ resAttributes soap res, P att.2) ↔ (res.mime ≠ "" → P (protocolInfo res.mime)) := by
  have int : ∀ name value, (∀ att ∈ intAttribute name value, P att.2) ↔ True := by
    intro name value
    unfold intAttribute
    split
    · simp
    · simpa using numbers _ (ordinary_toString value)
  have duration : ∀ name, (∀ att ∈ (if res.duration_secs = 0 then [] else
      [(name, (soap.upnpduration (wrap32 (res.duration_secs * 1000))).toList)] : Xml.Attributes),
        P att.2) ↔ True := by
    intro name
    split
    · simp
    · simpa using numbers _ (documented.durations _)
  unfold resAttributes
  simp only [List.forall_mem_append, int, duration, true_and]
  split
  · rename_i none
    simp [none]
  · rename_i some_mime
    simp [some_mime]

end Values

/-- The output is one well-formed element: with the attributes and the fields of the song, and the
content of the fragment. -/
def DidlFaithful (soap : SoapHelp) (song : UpSong) (noresource : Bool) (fragment : Xml.Content) :
    Prop :=
  Xml.Reads (song.didl soap noresource).toList (song.root soap noresource fragment)

/-- The id and the parent id are set both or not at all, what is printed without quoting needs no
quoting, and the characters are those of XML. -/
structure DidlSafe (song : UpSong) (noresource : Bool) : Prop where
  parents : song.id = "" ↔ song.parentid = ""
  plain : ∀ text ∈ song.attributeTexts noresource, Xml.Plain text.toList
  feeds : ∀ text ∈ song.exactTexts noresource, '\r' ∉ text.toList
  legal : ∀ text ∈
    song.attributeTexts noresource ++ (song.exactTexts noresource ++ song.otherTexts),
    text.toList.all Xml.legal

def Field.events (field : Field) : List Xml.Event :=
  .start field.name.toList field.attributes ::
    (field.shown.map .char ++ [.stop field.name.toList])

theorem events_ofText (text : Xml.Str) : (Xml.Content.ofText text).events = text.map .char := by
  induction text with
  | nil => rfl
  | cons c text ih => exact congrArg (.char c :: ·) ih

theorem events_fields (fields : List Field) (fragment : Xml.Content) :
    (fields.foldr Field.before fragment).events =
      fields.flatMap Field.events ++ fragment.events := by
  induction fields with
  | nil => rfl
  | cons field fields ih =>
      rw [List.foldr_cons, Field.before, Xml.Content.events, events_ofText, ih, List.flatMap_cons,
        Field.events]
      simp

section Whole

variable {soap : SoapHelp} {song : UpSong} {noresource : Bool}

theorem isName_attributes : ∀ field ∈ song.fields soap noresource, ∀ att ∈ field.attributes,
    Xml.isName att.1 := by
  apply (forall_attributes (P := fun attributes => ∀ att ∈ attributes, Xml.isName att.1)
    (by simp)).mpr
  intro res _ att member
  exact isName_resAttributeNames _
    ((sublist_resAttributeNames res).subset (List.mem_map_of_mem member))

theorem prints_fields : Xml.Prints ((song.fields soap noresource).flatMap Field.source)
    ((song.fields soap noresource).flatMap Field.events)
    (∀ field ∈ song.fields soap noresource, (∀ att ∈ field.attributes, Xml.Plain att.2) ∧
      Xml.lines field.text.toList = field.shown) := by
  have distinct : ∀ field ∈ song.fields soap noresource, (field.attributes.map Prod.fst).Nodup := by
    apply (forall_attributes (P := fun attributes => (attributes.map Prod.fst).Nodup)
      List.nodup_nil).mpr
    intro res _
    exact (sublist_resAttributeNames res).nodup nodup_resAttributeNames
  apply Xml.prints_flatMap
  intro field member
  exact Xml.prints_element (isName_fieldNames _ (name_mem_fieldNames field member))
    (isName_attributes field member) (distinct field member) field.text.toList field.shown

theorem isName_typetag : Xml.isName song.typetag.toList := by
  unfold typetag
  split <;> decide

theorem startSource_eq : song.startSource = '<' :: (song.typetag.toList ++
    ((if song.id = "" then [] else ' ' :: ("id".toList ++ '=' :: '"' :: song.id.toList)) ++
    ((if song.parentid = "" then [] else
      '"' :: Xml.printed ("parentID".toList, song.parentid.toList)) ++
    (song.settings.flatMap Xml.printed ++ ['>'])))) := by
  have opened : (s!"<{song.typetag}").toList = '<' :: song.typetag.toList := by
    simp [toString_string]
  have id : (if song.id = "" then "" else s!" id=\"{song.id}").toList =
      if song.id = "" then [] else ' ' :: ("id".toList ++ '=' :: '"' :: song.id.toList) := by
    split
    · rfl
    · simp [toString_string]
  have parent : (if song.parentid = "" then "" else
      s!"\" parentID=\"{song.parentid}\"").toList =
      if song.parentid = "" then [] else
        '"' :: Xml.printed ("parentID".toList, song.parentid.toList) := by
    split
    · rfl
    · simp [toString_string, Xml.printed]
  have settings :
      (s!" restricted=\"1\" searchable=\"{if song.searchable then 1 else 0}\">").toList =
      song.settings.flatMap Xml.printed ++ ['>'] := by
    unfold UpSong.settings
    cases song.searchable <;> decide
  unfold startSource
  simp only [String.toList_append] at opened id parent settings ⊢
  rw [opened, id, parent, settings]
  simp only [List.append_assoc, List.cons_append]

/-- The start tag when the quotes of the ids are in their places. -/
theorem startSource_of_parents (parents : song.id = "" ↔ song.parentid = "") : song.startSource =
    '<' :: (song.typetag.toList ++ song.rootAttributes.flatMap Xml.printed ++ ['>']) := by
  rw [startSource_eq]
  unfold rootAttributes
  by_cases empty : song.id = ""
  · rw [if_pos empty, if_pos empty, if_pos (parents.mp empty), if_pos (parents.mp empty)]
    simp only [List.nil_append, List.append_assoc]
  · have other : song.parentid ≠ "" := fun none => empty (parents.mpr none)
    rw [if_neg empty, if_neg empty, if_neg other, if_neg other]
    unfold Xml.printed
    simp only [List.flatMap_cons, List.append_assoc, List.cons_append, List.nil_append]

def rootNames : List Xml.Str :=
  ["id".toList, "parentID".toList, "restricted".toList, "searchable".toList]

theorem sublist_rootNames : (song.rootAttributes.map Prod.fst).Sublist rootNames := by
  have one : ∀ (c : Prop) [Decidable c] (name value : Xml.Str),
      ((if c then [] else [(name, value)]).map Prod.fst).Sublist [name] := by
    intro c _ name value
    split
    · exact List.nil_sublist _
    · exact List.Sublist.refl _
  unfold rootAttributes
  rw [List.map_append, List.map_append]
  exact (one _ _ _).append ((one _ _ _).append (List.Sublist.refl _))

theorem isName_rootNames : ∀ att ∈ song.rootAttributes, Xml.isName att.1 := by
  have names : ∀ name ∈ rootNames, Xml.isName name := by decide
  intro att member
  exact names _ (sublist_rootNames.subset (List.mem_map_of_mem member))

/-- A property of the values of the attributes of the song, which those of the plugin's own
have. -/
theorem forall_rootAttributes {P : Xml.Str → Prop} (none : P []) (zero : P ['0']) (one : P ['1']) :
    (∀ att ∈ song.rootAttributes, P att.2) ↔ P song.id.toList ∧ P song.parentid.toList := by
  have optional : ∀ (text : String) (name : Xml.Str),
      (∀ att ∈ (if text = "" then [] else [(name, text.toList)] : Xml.Attributes), P att.2) ↔
        P text.toList := by
    intro text name
    split
    · rename_i empty
      simpa [empty] using none
    · simp
  have own : ∀ att ∈ song.settings, P att.2 := by
    unfold settings
    cases song.searchable <;> simp [zero, one]
  unfold rootAttributes
  rw [List.forall_mem_append, List.forall_mem_append, optional, optional, and_iff_left own]

theorem prints_root (parents : song.id = "" ↔ song.parentid = "") :
    Xml.Prints song.startSource [.start song.typetag.toList song.rootAttributes]
      (∀ att ∈ song.rootAttributes, Xml.Plain att.2) := by
  rw [startSource_of_parents parents]
  have distinct : rootNames.Nodup := by decide
  exact Xml.prints_start isName_typetag isName_rootNames (sublist_rootNames.nodup distinct)

/-- Without the parent id the value of the id has no end. -/
theorem run_of_id (some_id : song.id ≠ "") (none : song.parentid = "") (rest : Xml.Str)
    (k : Xml.Mode) (more : List Xml.Event) :
    Xml.run (.text 0) (Xml.lines (song.startSource ++ rest)) ≠
      some (k, .start song.typetag.toList song.rootAttributes :: more) := by
  have id : Xml.isName "id".toList := by decide
  have restricted : Xml.isName "restricted".toList := by decide
  have attributes : song.rootAttributes = ("id".toList, song.id.toList) :: song.settings := by
    unfold rootAttributes
    rw [if_neg some_id, if_pos none]
    rfl
  have source : ∃ others, Xml.lines (song.startSource ++ rest) = '<' :: (song.typetag.toList ++
      ' ' :: ("id".toList ++ '=' :: '"' :: (Xml.lines song.id.toList ++
        (' ' :: ("restricted".toList ++ ['=']) ++ '"' :: '1' :: others)))) := by
    rw [startSource_eq, if_neg some_id, if_pos none]
    unfold settings Xml.printed
    simp only [List.flatMap_cons, List.cons_append, List.append_assoc, List.nil_append]
    rw [Xml.lines_cons (by decide), Xml.lines_name (Xml.nameChar_of_isName isName_typetag),
      Xml.lines_cons (by decide), Xml.lines_name (Xml.nameChar_of_isName id),
      Xml.lines_cons (by decide), Xml.lines_cons (by decide),
      Xml.lines_append (by decide) (by decide),
      Xml.lines_name (Xml.nameChar_of_isName restricted), Xml.lines_cons (by decide),
      Xml.lines_cons (by decide), Xml.lines_cons (by decide)]
    exact ⟨_, rfl⟩
  obtain ⟨others, source⟩ := source
  rw [source, Xml.run_start 0 isName_typetag, attributes]
  let att : Xml.Str × Xml.Str := ("id".toList, song.id.toList)
  have is_name : Xml.isName att.1 := id
  exact Xml.run_unclosed is_name (Xml.behind_name song.typetag.toList) (by simp) (by decide) rfl
    others k song.settings more

/-- Without the id there is a quote behind the name of the tag. -/
theorem run_of_parentid (no_id : song.id = "") (some_parent : song.parentid ≠ "") (rest : Xml.Str) :
    Xml.run (.text 0) (Xml.lines (song.startSource ++ rest)) = none := by
  have source : ∃ others, Xml.lines (song.startSource ++ rest) =
      '<' :: (song.typetag.toList ++ '"' :: others) := by
    rw [startSource_eq, if_pos no_id, if_neg some_parent, List.nil_append, List.cons_append,
      List.cons_append, Xml.lines_cons (by decide), List.append_assoc,
      Xml.lines_name (Xml.nameChar_of_isName isName_typetag), List.cons_append,
      Xml.lines_cons (by decide)]
    exact ⟨_, rfl⟩
  obtain ⟨others, source⟩ := source
  have stuck : Xml.step (.startName song.typetag.toList) '"' = none := rfl
  rw [source, Xml.run_start 0 isName_typetag, Xml.run, stuck]
  rfl

/-- The run over the whole output. -/
theorem run_didl (documented : soap.Documented) (song : UpSong) (noresource : Bool)
    {fragment : Xml.Content} (raw : Xml.Reads song.didlfrag.toList fragment) :
    (∃ brackets, Xml.run (.text 0) (Xml.lines (song.didl soap noresource).toList) =
        some (.text brackets, (song.root soap noresource fragment).events)) ↔
      (song.id = "" ↔ song.parentid = "") ∧ (∀ att ∈ song.rootAttributes, Xml.Plain att.2) ∧
      ∀ field ∈ song.fields soap noresource, (∀ att ∈ field.attributes, Xml.Plain att.2) ∧
        Xml.lines field.text.toList = field.shown := by
  have events : (song.root soap noresource fragment).events =
      .start song.typetag.toList song.rootAttributes ::
        ((song.fields soap noresource).flatMap Field.events ++
          (fragment.events ++ [.stop song.typetag.toList])) := by
    unfold root
    rw [Xml.Content.events, events_fields, Xml.Content.events, List.append_assoc]
  rw [toList_didl documented, events]
  by_cases parents : song.id = "" ↔ song.parentid = ""
  · have is_name : Xml.isName song.typetag.toList := isName_typetag
    have ended := Xml.run_fragment raw is_name
    have fields : Xml.Prints ((song.fields soap noresource).flatMap Field.source) _ _ :=
      prints_fields
    have printed := (prints_root parents).append fields
    have whole := printed
      (song.didlfrag.toList ++ '<' :: '/' :: (song.typetag.toList ++ ['>']))
    rw [and_iff_right parents]
    constructor
    · rintro ⟨brackets, ran⟩
      rw [← List.append_assoc] at ran
      exact ((whole (.text brackets) (fragment.events ++ [.stop song.typetag.toList])).mp ran).1
    · intro holds
      rw [← List.append_assoc]
      exact ⟨0, (whole (.text 0) _).mpr ⟨holds, ended⟩⟩
  · apply iff_of_false
    · rintro ⟨brackets, ran⟩
      by_cases no_id : song.id = ""
      · have some_parent : song.parentid ≠ "" := fun none => parents (iff_of_true no_id none)
        rw [run_of_parentid no_id some_parent] at ran
        cases ran
      · have no_parent : song.parentid = "" :=
          Decidable.byContradiction fun other => parents (iff_of_false no_id other)
        exact run_of_id no_id no_parent _ _ _ ran
    · exact fun all => parents all.1

theorem legal_startSource : song.startSource.all Xml.legal ↔
    song.id.toList.all Xml.legal ∧ song.parentid.toList.all Xml.legal := by
  have settings : (song.settings.flatMap Xml.printed ++ ['>']).all Xml.legal := by
    unfold UpSong.settings
    cases song.searchable <;> decide
  have id : (if song.id = "" then [] else
      ' ' :: ("id".toList ++ '=' :: '"' :: song.id.toList)).all Xml.legal =
      song.id.toList.all Xml.legal := by
    split
    · rename_i empty
      rw [empty]
      rfl
    · have name : (' ' :: ("id".toList ++ ['=', '"'])).all Xml.legal := by decide
      have split : ' ' :: ("id".toList ++ '=' :: '"' :: song.id.toList) =
          ' ' :: ("id".toList ++ ['=', '"']) ++ song.id.toList := by
        rw [List.cons_append, List.append_assoc]
        rfl
      rw [split, List.all_append, name, Bool.true_and]
  have parent : (if song.parentid = "" then [] else
      '"' :: Xml.printed ("parentID".toList, song.parentid.toList)).all Xml.legal =
      song.parentid.toList.all Xml.legal := by
    split
    · rename_i empty
      rw [empty]
      rfl
    · have names : ∀ att ∈ [("parentID".toList, song.parentid.toList)], Xml.isName att.1 := by
        have name : Xml.isName "parentID".toList := by decide
        simpa using name
      have printed := Xml.legal_attributes names
      rw [List.flatMap_cons, List.flatMap_nil, List.append_nil,
        List.forall_mem_singleton] at printed
      have quote : Xml.legal '"' := by decide
      rw [List.all_cons, quote, Bool.true_and]
      exact Bool.eq_iff_iff.mpr printed
  have less : Xml.legal '<' := by decide
  rw [startSource_eq, List.all_cons, List.all_append, List.all_append, List.all_append, settings,
    id, parent, less, Xml.legal_name isName_typetag, Bool.true_and, Bool.true_and, Bool.and_true,
    Bool.and_eq_true]

theorem legal_fields : ((song.fields soap noresource).flatMap Field.source).all Xml.legal ↔
    ∀ field ∈ song.fields soap noresource,
      (∀ att ∈ field.attributes, att.2.all Xml.legal) ∧ field.text.toList.all Xml.legal := by
  rw [List.all_flatMap, List.all_eq_true]
  refine forall₂_congr fun field member => ?_
  unfold Field.source
  rw [List.all_append, Bool.and_eq_true, Xml.legal_start
    (isName_fieldNames _ (name_mem_fieldNames field member)) (isName_attributes field member),
    Xml.legal_text (isName_fieldNames _ (name_mem_fieldNames field member))]

variable (documented : soap.Documented)
include documented

/-- A property of the values of all the attributes inside the element of the song. -/
theorem forall_fieldAttributes {P : Xml.Str → Prop}
    (numbers : ∀ text : Xml.Str, (∀ c ∈ text, Ordinary c) → P text)
    (mime : ∀ text : String, P (protocolInfo text) ↔ P text.toList) :
    (∀ field ∈ song.fields soap noresource, ∀ att ∈ field.attributes, P att.2) ↔
      ∀ res ∈ song.printedResources noresource, P res.mime.toList := by
  rw [forall_attributes (P := fun attributes => ∀ att ∈ attributes, P att.2) (by simp)]
  refine forall₂_congr fun res _ => ?_
  rw [forall_resAttributes documented numbers, mime]
  by_cases none : res.mime = ""
  · rw [none]
    exact iff_of_true (fun some_mime => absurd rfl some_mime) (numbers _ (by simp))
  · exact ⟨fun holds => holds none, fun holds _ => holds⟩

theorem legal_didl {fragment : Xml.Content} (raw : Xml.Reads song.didlfrag.toList fragment) :
    (song.didl soap noresource).toList.all Xml.legal ↔
      ∀ text ∈ song.attributeTexts noresource ++ (song.exactTexts noresource ++ song.otherTexts),
        text.toList.all Xml.legal := by
  have texts : (∀ field ∈ song.fields soap noresource, field.text.toList.all Xml.legal) ↔ _ :=
    forall_fields (Q := fun text _ => text.toList.all Xml.legal) (fun _ => rfl) (by decide)
      (by decide) (by decide)
  have mime : ∀ text : String, (protocolInfo text).all Xml.legal ↔ text.toList.all Xml.legal := by
    have before : "http-get:*:".toList.all Xml.legal := by decide
    have behind : ":* ".toList.all Xml.legal := by decide
    intro text
    unfold protocolInfo
    rw [List.all_append, List.all_append, before, behind, Bool.true_and, Bool.and_true]
  have values : (∀ field ∈ song.fields soap noresource, ∀ att ∈ field.attributes,
      att.2.all Xml.legal) ↔ _ :=
    forall_fieldAttributes documented (P := fun text => text.all Xml.legal)
      (fun _ => legal_of_ordinary) mime
  have closing : ('<' :: '/' :: (song.typetag.toList ++ ['>'])).all Xml.legal := by
    unfold typetag
    split <;> decide
  rw [toList_didl documented, List.all_append, List.all_append, List.all_append, raw.1, closing,
    Bool.and_self, Bool.and_true, Bool.and_eq_true, legal_startSource, legal_fields]
  simp only [forall_and]
  rw [texts, values]
  unfold attributeTexts
  simp only [List.forall_mem_append, List.forall_mem_cons, List.forall_mem_map]
  tauto

/-- The output is what the song says exactly when nothing in the song needs more care than the code
takes. -/
theorem didl_faithful_iff (song : UpSong) (noresource : Bool) {fragment : Xml.Content}
    (raw : Xml.Reads song.didlfrag.toList fragment) :
    DidlFaithful soap song noresource fragment ↔ DidlSafe song noresource := by
  have root : (∀ att ∈ song.rootAttributes, Xml.Plain att.2) ↔ _ :=
    forall_rootAttributes (P := Xml.Plain) (by decide) (by decide) (by decide)
  have values : (∀ field ∈ song.fields soap noresource, ∀ att ∈ field.attributes,
      Xml.Plain att.2) ↔ _ :=
    forall_fieldAttributes documented (P := Xml.Plain) (fun _ => plain_of_ordinary)
      plain_protocolInfo
  have feeds : (∀ field ∈ song.fields soap noresource,
      Xml.lines field.text.toList = field.shown) ↔
      ∀ text ∈ song.exactTexts noresource, '\r' ∉ text.toList := by
    have shown : ∀ field : Field, Xml.lines field.text.toList = field.shown ↔
        (field.exact = true → '\r' ∉ field.text.toList) := by
      intro field
      unfold Field.shown
      split
      · rename_i exact_text
        rw [Xml.lines_eq_self_iff]
        exact ⟨fun absent _ => absent, fun absent => absent exact_text⟩
      · rename_i loose
        exact iff_of_true rfl fun exact_text => absurd exact_text loose
    have texts : (∀ field ∈ song.fields soap noresource,
        (field.exact = true → '\r' ∉ field.text.toList)) ↔ _ :=
      forall_fields (Q := fun text exact => exact = true → '\r' ∉ text.toList) (by simp) (by decide)
        (by decide) (by decide)
    simp only [shown]
    rw [texts]
    simp
  unfold DidlFaithful Xml.Reads
  rw [legal_didl documented raw, run_didl documented song noresource raw, root]
  simp only [forall_and]
  rw [values, feeds]
  constructor
  · rintro ⟨legal, parents, ⟨id, parentid⟩, mimes, absent⟩
    refine ⟨parents, ?_, absent, legal⟩
    unfold attributeTexts
    simp only [List.forall_mem_cons, List.forall_mem_map]
    exact ⟨id, parentid, mimes⟩
  · intro safe
    have plain := safe.plain
    unfold attributeTexts at plain
    simp only [List.forall_mem_cons, List.forall_mem_map] at plain
    exact ⟨safe.legal, safe.parents, ⟨plain.1, plain.2.1⟩, plain.2.2, safe.feeds⟩

end Whole

/-- A libupnpp which quotes. -/
def quotingSoap : SoapHelp where
  xmlQuote text := String.ofList (Xml.quote text.toList)
  upnpduration _ := "0:00:00"

theorem documented_quotingSoap : quotingSoap.Documented where
  quotes text := String.toList_ofList
  durations _ c member := by
    have digits : c = '0' ∨ c = ':' ∨ c = '0' ∨ c = ':' ∨ c = '0' := by
      simpa [quotingSoap] using member
    have colon : c = '0' ∨ c = ':' := by tauto
    rcases colon with rfl | rfl
    · exact .inl rfl
    · exact .inr List.mem_cons_self

theorem reads_nil : Xml.Reads [] .nil := ⟨rfl, 0, rfl⟩

def quotedSong : UpSong where
  id := "0$uprcl$1"
  parentid := "0$uprcl"
  title := "Q & A <live>"
  artist := "\"Weird Al\""
  rsrc := { uri := "http://host/a?b=1&c=2", mime := "audio/flac", channels := 2 }

theorem quotedSong_faithful : DidlFaithful quotingSoap quotedSong false .nil := by
  refine (didl_faithful_iff documented_quotingSoap quotedSong false reads_nil).mpr ?_
  exact ⟨by decide, by decide, by decide, by decide⟩

/-- An id without a parent id. -/
theorem orphan_not_faithful :
    ¬ ∀ (soap : SoapHelp) (song : UpSong) (noresource : Bool) (fragment : Xml.Content),
      soap.Documented → Xml.Reads song.didlfrag.toList fragment →
        DidlFaithful soap song noresource fragment := by
  intro faithful
  let orphan : UpSong := { id := "0$uprcl$1", title := "Title" }
  have orphan_read := faithful quotingSoap orphan false .nil documented_quotingSoap reads_nil
  have parents := ((run_didl documented_quotingSoap orphan false reads_nil).mp orphan_read.2).1
  exact absurd (parents.mpr rfl) (by decide)

end UpSong

end Upmpdcli
