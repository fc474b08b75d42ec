import Upmpdcli.Lib.VarMap
import Upmpdcli.MpdCliState
import Upmpdcli.OHService
import Upmpdcli.UpMpd

set_option autoImplicit false

namespace Upmpdcli

/-- What the playlist service calls: libupnpp, and parts of the program which its own logic
does not depend on. `firstTitle` is the title of the first item of DIDL data, if it can be
parsed and has one, and `ohMetaPersist` the option to keep the metadata cache in a file. -/
structure PlaylistHelp where
  soap : SoapHelp
  base64_encode : List UInt8 → String
  firstTitle : String → Option String
  protocolinfo : String
  morphSpecialUrl : String → Option (String × Bool)
  checkContentFormat : String → String → Bool → Option UpSong
  ohMetaPersist : Bool := false

/-- The simplest one. -/
def PlaylistHelp.plain : PlaylistHelp where
  soap := { xmlQuote := id, upnpduration := fun _ => "" }
  base64_encode := fun _ => ""
  firstTitle := fun _ => none
  protocolinfo := ""
  morphSpecialUrl := fun uri => some (uri, false)
  checkContentFormat := fun _ _ _ => some {}

/-- The service. `saves` is what it has handed to `dmcacheSave`, the last one first. -/
structure OHPlaylist where
  m_active : Bool := true
  m_mpdsavedstate : MpdState := {}
  m_upnpstate : StateMap := []
  m_metacache : List (String × String) := []
  m_cachedirty : Bool := false
  saves : List (List (String × String)) := []
  m_mpdqvers : Int := -1
  m_idArrayCached : String := ""
  m_lastplayid : Int := -1
  m_firstqid : Int := 0
deriving DecidableEq

def mpdstatusToTransportState : PlayState → String
  | .play => "Playing"
  | .pause => "Paused"
  | .unk | .stop => "Stopped"

/-- What happens to the queries and commands of a switch of the source. -/
structure LeaveEnv where
  queue : ListEnv := {}
  save : SaveEnv := {}
  stop : CmdEnv := {}
deriving DecidableEq

structure ComeBackEnv where
  clear : CmdEnv := {}
  restore : RestoreEnv := {}
deriving DecidableEq

/-- What happens to the queries and commands of an action on the playlist, which is first
made active if it is not. -/
structure ActEnv where
  activate : ComeBackEnv := {}
  queue : ListEnv := {}
  insert : InsertAfterEnv := {}
deriving DecidableEq

/-- One `Entry` of a `TrackList`. -/
structure TrackEntry where
  id : String
  uri : String
  metadata : String
deriving DecidableEq

namespace OHPlaylist

variable (help : PlaylistHelp)

def metaSameTitle (meta1 meta2 : String) : Bool :=
  match help.firstTitle meta1, help.firstTitle meta2 with
  | some tit1, some tit2 => tit1 = tit2
  | _, _ => false

/-- The four bytes of an id, the most significant one first. -/
def idBytes (id : Int) : List UInt8 :=
  let val := unsigned id
  if val = 0 then []
  else [UInt8.ofNat (val / 2 ^ 24), UInt8.ofNat (val / 2 ^ 16), UInt8.ofNat (val / 2 ^ 8),
    UInt8.ofNat val]

def translateIdArray (songs : List UpSong) : String :=
  help.base64_encode (songs.flatMap fun song => idBytes song.mpdid)

/-- The first part of `makeIdArray`, when the queue has not changed. The title of a radio
stream may have, and then an empty array makes the control point flush what it knows. -/
def checkTitle (pl : OHPlaylist) (mpds : MpdStatus) : String × OHPlaylist :=
  let uri := mpds.currentsong.rsrc.uri
  match if mpds.songid ≠ -1 then pl.m_metacache.lookup uri else none with
  | some old =>
      let nmeta := UpSong.didlmake help.soap mpds.currentsong
      if Smallut.contains old UpSong.origMpd ∧ ¬ metaSameTitle help nmeta old then
        (translateIdArray help [],
          { pl with m_metacache := VarMap.set pl.m_metacache uri nmeta })
      else (pl.m_idArrayCached, pl)
  | none => (pl.m_idArrayCached, pl)

/-- The caches and the flag during the walk over the queue. -/
structure CacheWalk where
  m_metacache : List (String × String)
  nmeta : List (String × String) := []
  m_cachedirty : Bool

/-- The new cache takes over what the old one has, and has data from MPD for the others. -/
def CacheWalk.take (c : CacheWalk) (usong : UpSong) : CacheWalk :=
  let uri := usong.rsrc.uri
  match c.m_metacache.lookup uri with
  | some found =>
      { c with
        m_metacache := VarMap.erase c.m_metacache uri
        nmeta := VarMap.set c.nmeta uri found }
  | none =>
      match c.nmeta.lookup uri with
      | some _ => c
      | none =>
          { c with
            nmeta := VarMap.set c.nmeta uri (UpSong.didlmake help.soap usong)
            m_cachedirty := true }

def walkQueue : List UpSong → CacheWalk → CacheWalk
  | [], c => c
  | usong :: rest, c => walkQueue rest (c.take help usong)

/-- The new cache is saved when songs were added or stale entries are left. -/
def refreshMetacache (pl : OHPlaylist) (vdata : List UpSong) : OHPlaylist :=
  let c := walkQueue help vdata { m_metacache := pl.m_metacache, m_cachedirty := pl.m_cachedirty }
  let save := help.ohMetaPersist && (c.m_metacache ≠ [] || c.m_cachedirty)
  { pl with
    m_metacache := c.nmeta
    m_cachedirty := if save then false else c.m_cachedirty
    saves := if save then c.nmeta :: pl.saves else pl.saves }

/-- The second part of `makeIdArray`, with the queue that was read. An inactive playlist
leaves its cache alone. -/
def refreshCache (pl : OHPlaylist) (mpds : MpdStatus) (vdata : List UpSong) :
    String × OHPlaylist :=
  let out := translateIdArray help vdata
  let pl := { pl with m_idArrayCached := out }
  let pl :=
    match vdata with
    | [] => { pl with m_lastplayid := -1, m_firstqid := 0 }
    | first :: _ => { pl with m_firstqid := first.mpdid }
  let pl := { pl with m_mpdqvers := mpds.qvers }
  (out, if pl.m_active then refreshMetacache help pl vdata else pl)

/-- A queue which cannot be read leaves `out` empty. -/
def makeIdArray (pl : OHPlaylist) (w : World) (env : ListEnv) : String × OHPlaylist × World :=
  let mpds := w.cli.m_stat
  if mpds.qvers = pl.m_mpdqvers then
    let (out, pl) := checkTitle help pl mpds
    (out, pl, w)
  else
    match MpdCli.getQueueData w env with
    | (none, w) => ("", pl, w)
    | (some vdata, w) =>
        let (out, pl) := refreshCache help pl mpds vdata
        (out, pl, w)

def makestate (pl : OHPlaylist) (w : World) (env : ListEnv) : StateMap × OHPlaylist × World :=
  if pl.m_active then
    let mpds := w.cli.m_stat
    let (ids, pl, w) := makeIdArray help pl w env
    let pl := if mpds.songid ≠ -1 then { pl with m_lastplayid := mpds.songid } else pl
    let id :=
      if mpds.songid ≠ -1 then mpds.songid
      else if pl.m_lastplayid = -1 then pl.m_firstqid
      else pl.m_lastplayid
    ([("TransportState", mpdstatusToTransportState mpds.state),
      ("Repeat", flag mpds.rept), ("Shuffle", flag mpds.random), ("IdArray", ids),
      ("Id", toString id), ("TracksMax", "16384"), ("ProtocolInfo", help.protocolinfo)], pl, w)
  else (VarMap.set pl.m_upnpstate "TransportState" "Stopped", pl, w)

/-- `iidArray`: the id array and its token. -/
def iidArray (pl : OHPlaylist) (w : World) (env : ListEnv) :
    Int × String × OHPlaylist × World :=
  let (st, pl, w) := makestate help pl w env
  (if pl.m_active then w.cli.m_stat.qvers else 0, (st.lookup "IdArray").getD "", pl, w)

/-- The `Value` of the `IdArrayChanged` action for this token. -/
def idArrayChanged (w : World) (qvers : Int) : String := flag (w.cli.m_stat.qvers = qvers)

def iStop (w : World) (env : CmdEnv) : UpnpCode × World :=
  let (ok, w) := MpdCli.stop w env
  (if ok then .success else .internalError, w)

/-- `setActive(false)`. -/
def leave (pl : OHPlaylist) (w : World) (env : LeaveEnv) : OHPlaylist × World :=
  let (st, pl, w) := makestate help pl w env.queue
  let pl := { pl with m_upnpstate := st }
  let (_, saved, w) := MpdCli.saveState w pl.m_mpdsavedstate (-1) env.save
  let (_, w) := iStop w env.stop
  ({ pl with m_mpdsavedstate := saved, m_active := false }, w)

/-- `setActive(true)`. The event it sends comes from the frozen state. -/
def comeBack (pl : OHPlaylist) (w : World) (env : ComeBackEnv) : OHPlaylist × World :=
  let (_, w) := MpdCli.clearQueue w env.clear
  let (_, w) := MpdCli.restoreState w pl.m_mpdsavedstate env.restore
  ({ pl with m_active := true }, w)

def cacheFind (pl : OHPlaylist) (uri : String) : Option String := pl.m_metacache.lookup uri

def cacheSet (pl : OHPlaylist) (uri metadata : String) : OHPlaylist :=
  { pl with m_metacache := VarMap.set pl.m_metacache uri metadata, m_cachedirty := true }

/-- The id which an entry of the saved queue has in the queue of MPD. -/
def idFromOldId (pl : OHPlaylist) (w : World) (oldid : Int) (env : ListEnv) : Int × World :=
  match pl.m_mpdsavedstate.queue.find? fun entry => entry.mpdid = oldid with
  | none => (-1, w)
  | some old =>
      if old.rsrc.uri = "" then (-1, w)
      else
        match MpdCli.getQueueData w env with
        | (none, w) => (-1, w)
        | (some vdata, w) =>
            match vdata.find? fun entry => entry.rsrc.uri = old.rsrc.uri with
            | some entry => (entry.mpdid, w)
            | none => (-1, w)

/-- `insertUri` up to the insertion into the queue of MPD. -/
def startInsert (pl : OHPlaylist) (uri metadata : String) (nocheck : Bool) :
    Option (UpSong × OHPlaylist) :=
  match help.checkContentFormat uri metadata nocheck with
  | none => none
  | some metaformpd => some (metaformpd, pl.cacheSet uri metadata)

/-- `insertUri`, which gives the new id. -/
def insertUri (pl : OHPlaylist) (w : World) (afterid : Int) (uri metadata : String)
    (nocheck : Bool) (env : ActEnv) : Option Int × OHPlaylist × World :=
  if pl.m_active then
    match pl.startInsert help uri metadata nocheck with
    | none => (none, pl, w)
    | some (metaformpd, pl) =>
        let (id, w) := MpdCli.insertAfterId w uri afterid metaformpd env.insert
        (if id ≠ -1 then some id else none, pl, w)
  else
    let (pl, w) := pl.comeBack w env.activate
    (none, pl, w)

/-- The `Insert` action. `args` are the arguments, if none is missing. -/
def insert (pl : OHPlaylist) (w : World) (args : Option (Int × String × String)) (env : ActEnv) :
    UpnpCode × Option Int × OHPlaylist × World :=
  match args with
  | none => (.invalidParam, none, pl, w)
  | some (afterid, uri, metadata) =>
      match help.morphSpecialUrl uri with
      | none => (.invalidParam, none, pl, w)
      | some (uri, forcenocheck) =>
          let (afterid, pl, w) :=
            if pl.m_active then (some afterid, pl, w)
            else
              let (pl, w) := pl.comeBack w env.activate
              match pl.idFromOldId w afterid env.queue with
              | (id, w) => (if id < 0 then none else some id, pl, w)
          match afterid with
          | none => (.internalError, none, pl, w)
          | some afterid =>
              match pl.insertUri help w afterid uri metadata forcenocheck env with
              | (some newid, pl, w) => (.success, some newid, pl, w)
              | (none, pl, w) => (.internalError, none, pl, w)

/-- The metadata of a song for a control point: what was given with its uri, or else data
from MPD, which the cache then keeps. -/
def songMetadata (pl : OHPlaylist) (song : UpSong) : String × OHPlaylist :=
  match pl.cacheFind song.rsrc.uri with
  | some metadata => (metadata, pl)
  | none =>
      let metadata := UpSong.didlmake help.soap song
      (metadata, pl.cacheSet song.rsrc.uri metadata)

/-- `statSong` by id. -/
def statSong (w : World) (id : Int) (answered : Bool) : Option UpSong :=
  if answered then
    (w.mpd.queue.songs.find? fun song => song.id = unsigned id).map (mapSong {})
  else none

/-- The entry of the saved queue which counts, the last one. -/
def savedSong (pl : OHPlaylist) (id : Int) : Option UpSong :=
  pl.m_mpdsavedstate.queue.reverse.find? fun entry => entry.mpdid = id

/-- The `Read` action on this id: the uri and the metadata. -/
def ohread (pl : OHPlaylist) (w : World) (id : Int) (answered : Bool) :
    UpnpCode × Option (String × String) × OHPlaylist :=
  if pl.m_active then
    match statSong w id answered with
    | none => (.internalError, none, pl)
    | some song =>
        let (metadata, pl) := pl.songMetadata help song
        (.success, some (song.rsrc.uri, metadata), pl)
  else
    match pl.savedSong id with
    | none => (.internalError, none, pl)
    | some song => (.success, some (song.rsrc.uri, UpSong.didlmake help.soap song), pl)

/-- The entry for one id of a `ReadList`. -/
def readEntry (pl : OHPlaylist) (w : World) (token : String) (answered : Bool) :
    Option TrackEntry × OHPlaylist :=
  let id := Smallut.atoi token
  if id = -1 then (none, pl)
  else if pl.m_active then
    match statSong w id answered with
    | none => (none, pl)
    | some song =>
        let (metadata, pl) := pl.songMetadata help song
        (some ⟨token, song.rsrc.uri, metadata⟩, pl)
  else
    match pl.savedSong id with
    | none => (none, pl)
    | some song =>
        let metadata := (pl.cacheFind song.rsrc.uri).getD (UpSong.didlmake help.soap song)
        (if metadata = "" then none else some ⟨token, song.rsrc.uri, metadata⟩, pl)

/-- The loop of `readList`. MPD does not answer for the ids in `failed`. -/
def readEntries (pl : OHPlaylist) (w : World) (failed : List String) :
    List String → List TrackEntry × OHPlaylist
  | [] => ([], pl)
  | token :: rest =>
      let (entry, pl) := pl.readEntry help w token (token ∉ failed)
      let (entries, pl) := readEntries pl w failed rest
      (entry.toList ++ entries, pl)

def trackList (entries : List TrackEntry) : String :=
  entries.foldl (fun out entry =>
    out ++ "<Entry><Id>" ++ help.soap.xmlQuote entry.id ++ "</Id><Uri>" ++
      help.soap.xmlQuote entry.uri ++ "</Uri><Metadata>" ++ help.soap.xmlQuote entry.metadata ++
      "</Metadata></Entry>") "<TrackList>" ++ "</TrackList>"

def readList (pl : OHPlaylist) (w : World) (sids : String) (failed : List String) :
    String × OHPlaylist :=
  let (entries, pl) := pl.readEntries help w failed (Smallut.stringToTokens sids)
  (trackList help entries, pl)

end OHPlaylist

end Upmpdcli
