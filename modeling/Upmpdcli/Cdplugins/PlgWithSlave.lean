import Upmpdcli.Cdplugins.ContentCache
import Upmpdcli.Cdplugins.ResultToEntries

set_option autoImplicit false

namespace Upmpdcli

/-- The values a slave process returns for one procedure call. -/
abbrev SlaveResult := String → Option String

/-- What one call finds outside of the object: the clock when it starts and when the
slave has answered, whether the slave runs, and the slave itself. -/
structure SlaveEnv where
  now : Int
  done : Int
  running : Bool
  callproc : String → List (String × String) → Option SlaveResult

/-- The part of `PlgWithSlave` which its calls change: the two caches. -/
structure PlgWithSlave where
  m_name : String
  scache : ContentCache
  bcache : ContentCache

inductive BrowseFlag
  | bfMeta
  | bfChildren
deriving DecidableEq

/-- The `flag` argument of the slave. -/
def BrowseFlag.sbflg : BrowseFlag → String
  | .bfMeta => "meta"
  | .bfChildren => "children"

namespace SlaveResult

open Smallut

def nocache (res : SlaveResult) : Bool := ((res "nocache").map stringToBool).getD false

def offset (res : SlaveResult) : Int := ((res "offset").map atoi).getD 0

def total (res : SlaveResult) : Int := ((res "total").map atoi).getD (-1)

end SlaveResult

/-- The slots filled by `eli5`. -/
structure Eli5 where
  slavefield : String := ""
  value : String := ""
  classfilter : String := ""
  objkind : String := ""
deriving DecidableEq

namespace PlgWithSlave

open Smallut

/-- The object at start time. -/
def init (name : String) (now : Int) : PlgWithSlave :=
  ⟨name, { m_lastpurge := now, m_retention_secs := 300 },
    { m_lastpurge := now, m_retention_secs := 180 }⟩

/-- Better return a bogus informative entry than an outright error. -/
def errorEntries (pid : String) : Int × List UpSong :=
  (1, [UpSong.item (pid ++ "$bogus") pid "Service login or communication failure"])

def objkindOf (what objkind : String) : String :=
  if beginswith what "object.item" then "track"
  else if beginswith what "object.container.person" then "artist"
  else if beginswith what "object.container.musicAlbum" ||
      beginswith what "object.container.album" then "album"
  else if beginswith what "object.container.playlistContainer" ||
      beginswith what "object.container.playlist" then "playlist"
  else objkind

/-- One clause `upnpproperty op value`, and whether the loop stops there. -/
def eli5Clause (upnpproperty value : String) (slots : Eli5) : Eli5 × Bool :=
  if upnpproperty = "upnp:class" then
    ({ slots with objkind := objkindOf value slots.objkind, classfilter := value }, false)
  else if upnpproperty = "upnp:artist" ∨ upnpproperty = "dc:author" then
    ({ slots with slavefield := "artist", value := value }, true)
  else if upnpproperty = "upnp:album" then
    ({ slots with slavefield := "album", value := value }, true)
  else if upnpproperty = "dc:title" then
    ({ slots with slavefield := "track", value := value }, true)
  else (slots, false)

/-- The clauses are separated by one word, which is not looked at. -/
def eli5Clauses : List String → Eli5 → Eli5
  | [upnpproperty, _, value], slots => (eli5Clause upnpproperty value slots).1
  | upnpproperty :: _ :: value :: _ :: rest, slots =>
      let (slots, stop) := eli5Clause upnpproperty value slots
      if stop then slots else eli5Clauses rest slots
  | _, slots => slots

def eli5 (searchstr : String) : Option Eli5 :=
  let vs := (stringToStrings (neutchars searchstr "()" ' ')).1
  if (vs.length + 1) % 4 ≠ 0 then none else some (eli5Clauses vs {})

variable (decode : String → Option Json)

/-- `resultToEntries` with the reading of the text, where `>>` throws on an error. -/
def decodeResult (encoded classfilter : String) : List UpSong × Option Nat :=
  match decode encoded with
  | some decoded => resultToEntries decoded classfilter
  | none => ([], none)

/-- The end of `browse` and of `search`: the new entry is put in the cache first, and
filled there. The outer `none` is an exception. -/
def storeResult (cache : ContentCache) (key : String) (env : SlaveEnv) (res : SlaveResult)
    (encoded classfilter : String) (stidx cnt : Int) :
    ContentCache × Option (Int × List UpSong) :=
  let (results, ended) := decodeResult decode encoded classfilter
  let e : ContentCacheEntry :=
    { m_time := env.done, m_offset := res.offset, m_total := res.total, m_results := results }
  (if res.nocache then cache else cache.set key e,
    ended.map fun _ => e.toResult stidx cnt [])

def browseKey (s : PlgWithSlave) (objid : String) : String := s.m_name ++ ":" ++ objid

/-- `adjusted cnt` of the cache check. -/
def adjustCnt (cep : ContentCacheEntry) (stidx cnt : Int) : Int :=
  if cep.m_total > 0 ∧ wrap32 (cnt + stidx) > cep.m_total then cep.m_total - stidx else cnt

def browseArgs (objid sbflg : String) (stidx cnt : Int) : List (String × String) :=
  [("objid", objid), ("flag", sbflg), ("offset", lltodecstr stidx), ("count", lltodecstr cnt)]

/-- `browse` when the cache does not answer. -/
def browseSlave (s : PlgWithSlave) (objid : String) (stidx cnt : Int) (flg : BrowseFlag)
    (env : SlaveEnv) : PlgWithSlave × Option (Int × List UpSong) :=
  match env.callproc "browse" (browseArgs objid flg.sbflg stidx cnt) with
  | none => (s, some (errorEntries objid))
  | some res =>
      match res "entries" with
      | none => (s, some (errorEntries objid))
      | some encoded =>
          match flg with
          | .bfChildren =>
              let (bcache, out) :=
                storeResult decode s.bcache (s.browseKey objid) env res encoded "" stidx cnt
              ({ s with bcache := bcache }, out)
          | .bfMeta =>
              let (entries, ended) := decodeResult decode encoded ""
              (s, ended.map fun size => (Int.ofNat size, entries))

def browse (s : PlgWithSlave) (objid : String) (stidx cnt : Int) (flg : BrowseFlag)
    (env : SlaveEnv) : PlgWithSlave × Option (Int × List UpSong) :=
  if env.running then
    match flg with
    | .bfMeta => browseSlave decode s objid stidx cnt flg env
    | .bfChildren =>
        let (cep, bcache) := s.bcache.get env.now (s.browseKey objid)
        let s := { s with bcache := bcache }
        match cep with
        | none => browseSlave decode s objid stidx cnt flg env
        | some cep =>
            let cnt := adjustCnt cep stidx cnt
            if cep.m_offset ≤ stidx ∧
                wrap32 cep.m_results.length - (stidx - cep.m_offset) ≥ cnt then
              (s, some (cep.toResult stidx cnt []))
            else browseSlave decode s objid stidx cnt flg env
  else (s, some (errorEntries objid))

def searchKey (s : PlgWithSlave) (ctid searchstr : String) : String :=
  s.m_name ++ ":" ++ ctid ++ ":" ++ searchstr

def searchArgs (ctid searchstr : String) (slots : Eli5) (stidx cnt : Int) :
    List (String × String) :=
  [("objid", ctid), ("objkind", slots.objkind), ("origsearch", searchstr),
    ("field", slots.slavefield), ("value", slots.value), ("offset", lltodecstr stidx),
    ("count", lltodecstr cnt)]

def search (s : PlgWithSlave) (ctid : String) (stidx cnt : Int) (searchstr : String)
    (env : SlaveEnv) : PlgWithSlave × Option (Int × List UpSong) :=
  if env.running then
    match eli5 searchstr with
    | none => (s, some (errorEntries ctid))
    | some slots =>
        let (cep, scache) := s.scache.get env.now (s.searchKey ctid searchstr)
        let s := { s with scache := scache }
        match cep with
        | some cep => (s, some (cep.toResult stidx cnt []))
        | none =>
            match env.callproc "search" (searchArgs ctid searchstr slots stidx cnt) with
            | none => (s, some (errorEntries ctid))
            | some res =>
                match res "entries" with
                | none => (s, some (errorEntries ctid))
                | some encoded =>
                    let (scache, out) :=
                      storeResult decode s.scache (s.searchKey ctid searchstr) env res encoded
                        slots.classfilter stidx cnt
                    ({ s with scache := scache }, out)
  else (s, some (errorEntries ctid))

/-- The requests a content directory sends to its plugin. -/
inductive Request
  | browse (objid : String) (stidx cnt : Int) (flg : BrowseFlag) (env : SlaveEnv)
  | search (ctid : String) (stidx cnt : Int) (searchstr : String) (env : SlaveEnv)

def step (s : PlgWithSlave) (request : Request) :
    Option (PlgWithSlave × Option (Int × List UpSong)) :=
  match request with
  | .browse objid stidx cnt flg env => some (browse decode s objid stidx cnt flg env)
  | .search ctid stidx cnt searchstr env => some (search decode s ctid stidx cnt searchstr env)

end PlgWithSlave

end Upmpdcli
