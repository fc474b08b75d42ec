import Upmpdcli.Lib.Dict
import Upmpdcli.Lib.Html

set_option autoImplicit false

/- The radio-browser plugin: containers of criteria and values, whose ids are paths. -/
namespace Upmpdcli.RadioBrowser

abbrev Str := List Char

abbrev Entry := List (String × Str)

/-- A radio of the public service, which has a uuid. -/
structure Radio where
  stationuuid : Str
  identified : stationuuid ≠ []
  url_resolved : Str
  name : Str
  codec : Option Str := none
  favicon : Option Str := none

/-- What the filter object has for its arguments: the names of what is left to choose, and the
radios. `truth` is what the object is when it is tested. -/
structure RadioFacets where
  countrycodes : List Str
  languages : List Str
  tags : List Str
  result : List Radio
  truth : Bool

/-- The service, with the names of the countries by their codes, and what the libraries give. -/
structure Service where
  facets : List (Str × Str) → RadioFacets
  station_by_uuid : Str → List Radio
  ccodetoc : List (Str × Str)
  lower : Str → Str
  html : Html.References

def myprefix : Str := "0$radio-browser$".toList

def mimeOf (service : Service) (codec : Option Str) : Str :=
  match codec with
  | none => "audio/mpeg".toList
  | some codec =>
      if service.lower codec = "flac".toList then "audio/flac".toList
      else if "aac".toList.isPrefixOf (service.lower codec) then "audio/aac".toList
      else if service.lower codec = "ogg".toList then "audio/ogg".toList
      else "audio/mpeg".toList

/-- `_radiotoentry`. -/
def radiotoentry (service : Service) (pid : Str) (id : Option Str) (radio : Radio) : Entry :=
  let objid :=
    match id with
    | some id => id
    | none => (if pid.getLast? = some '$' then pid else pid ++ ['$']) ++ radio.stationuuid
  [("pid", pid), ("id", objid), ("uri", radio.url_resolved), ("tp", "it".toList),
    ("res:mime", mimeOf service radio.codec),
    ("upnp:class", "object.item.audioItem.audioBroadcast".toList),
    ("upnp:album", radio.codec.getD "Unknown".toList), ("tt", radio.name),
    ("upnp:artist", "Internet Radio".toList)] ++
  match radio.favicon with
  | some favicon => [("upnp:albumArtURI", favicon)]
  | none => []

def direntry (id pid title : Str) : Entry :=
  [("id", id), ("pid", pid), ("tt", title), ("tp", "ct".toList), ("searchable", "1".toList),
    ("upnp:class", "object.container.storageFolder".toList)]

/-- What `_pathtocrits` returns. -/
structure Crits where
  crit : Option Str := none
  value : Option Str := none
  setcrits : List Str := []
  filterargs : List (Str × Str) := []
deriving DecidableEq

def argtrans : List (Str × Str) :=
  [("tags", "tag"), ("countrycodes", "countrycode"), ("languages", "language")].map
    fun names => (names.1.toList, names.2.toList)

/-- The loop of `_pathtocrits`. There is no result for a value of what is no criterion. -/
def walkPath (refs : Html.References) : List Str → Crits → Option Crits
  | [], crits => some crits
  | [crit], crits => some { crits with crit := some crit, value := none }
  | crit :: component :: rest, crits =>
      let value := Html.unescape refs component
      (argtrans.lookup crit).bind fun arg =>
        walkPath refs rest
          { crit := some crit
            value := some value
            setcrits := crits.setcrits ++ [crit]
            filterargs := Dict.set crits.filterargs arg value }

def pathtocrits (refs : Html.References) (path : Str) : Option Crits :=
  walkPath refs (if path = [] then [] else path.splitOn '/') {}

def objidtopath (objid : Str) : Option Str :=
  if myprefix.isPrefixOf objid then
    some ((objid.drop myprefix.length).dropWhile (· = '/'))
  else none

/-- What is behind the first dollar of the path. -/
def metaUuid (path : Str) : Option Str :=
  (Text.find ['$'] path).map fun uuidpos => path.drop (uuidpos + 1)

/-- `browse` for the metadata. The entry for an id without a dollar has a function for its id,
which cannot be printed. -/
def browseMeta (service : Service) (objid : Str) : Option (List Entry) := do
  let path ← objidtopath objid
  let uuid ← metaUuid path
  let radio ← (service.station_by_uuid uuid).head?
  return [radiotoentry service objid none radio]

/-- `_crittotitle`. -/
def crittotitle : List (Str × Str) :=
  [("tags", "tags"), ("countrycodes", "countries"), ("languages", "languages")].map
    fun names => (names.1.toList, names.2.toList)

/-- The values of a criterion, with their titles. Countries are sorted by their names, which
compare by code points. -/
def valuesOf (service : Service) (facets : RadioFacets) (crit : Str) : Option (List (Str × Str)) :=
  if crit = "countrycodes".toList then
    let named := facets.countrycodes.filterMap fun code =>
      if code = [] then none else (service.ccodetoc.lookup code).map fun title => (code, title)
    some (named.mergeSort fun first second =>
      !List.lex second.2 first.2 fun c d => c.toNat < d.toNat)
  else if crit = "languages".toList then some (facets.languages.map fun name => (name, name))
  else if crit = "tags".toList then some (facets.tags.map fun name => (name, name))
  else none

def valueEntries (objid : Str) (values : List (Str × Str)) : List Entry :=
  (values.filter (·.1 ≠ [])).map fun value =>
    direntry (objid ++ '/' :: Html.escape value.1) objid value.2

/-- The criteria which are not set. -/
def criterionEntries (objid : Str) (setcrits : List Str) : List Entry :=
  ((["countrycodes", "languages", "tags"].map String.toList).filter
    (¬ setcrits.contains ·)).map fun tagname =>
      direntry (objid ++ '/' :: tagname) objid ((crittotitle.lookup tagname).getD [])

/-- The values of the criterion at the end of the path, or the criteria which are left. -/
def shownEntries (service : Service) (facets : RadioFacets) (objid : Str) (crits : Crits) :
    Option (List Entry) :=
  match crits.value, crits.crit with
  | none, some crit => (valuesOf service facets crit).map (valueEntries objid)
  | _, _ => some (criterionEntries objid crits.setcrits)

/-- The link to the radios behind a value. There is no filter without a criterion. -/
def radiosLink (facets : RadioFacets) (objid : Str) (crits : Crits) : List Entry :=
  if (crits.crit ≠ none ∧ crits.crit ≠ some []) ∧ facets.truth ∧ crits.value ≠ none ∧
      crits.value ≠ some [] then
    [direntry (objid ++ "/radios".toList) objid
      (Text.str facets.result.length ++ " radios".toList)]
  else []

/-- `browse` for the children. -/
def browseChildren (service : Service) (objid : Str) : Option (List Entry) := do
  let path ← objidtopath objid
  let crits ← pathtocrits service.html path
  let facets := service.facets crits.filterargs
  if crits.crit = some "radios".toList then
    return facets.result.map (radiotoentry service objid none)
  else return (← shownEntries service facets objid crits) ++ radiosLink facets objid crits

end Upmpdcli.RadioBrowser
