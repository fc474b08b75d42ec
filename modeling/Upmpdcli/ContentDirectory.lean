import Upmpdcli.Cdplugins.PlgWithSlave
import Upmpdcli.Cdplugins.PlgWithSlaveTranslation
import Upmpdcli.Lib.Dict
import Upmpdcli.Lib.Lines
import Upmpdcli.Lib.Text

set_option autoImplicit false

/- The content directory of the media server: the root directory, the plugins and the requests
which reach them. -/
namespace Upmpdcli

open Smallut

/-- What does not change after the start. -/
structure CDConfig where
  g_datadir : String
  g_configfilename : String
  options : String → Option String
  enable_spotify : Bool
  decode : String → Option Json
  soap : SoapHelp

/-- A command given to `startExec`, without arguments. -/
structure PluginCommand where
  exepath : String
  env : List String

/-- A plugin with the state of its process, and the record of its last translation. -/
structure CDPlugin where
  plg : PlgWithSlave
  running : Bool := false
  failed : Bool := false
  laststream : StreamHandle := {}

/-- What a request finds outside of the object. `listdir` is the sorted listing of the plugins
directory, and `ipv4` the address and the port of the device. -/
structure CDEnv where
  listdir : Option (List String) := none
  ipv4 : Option (String × Int) := none
  startExec : Bool := true
  slave : SlaveEnv

/-- `ContentDirectory::Internal`, with the static `rootdir` and `last_objid`. -/
structure ContentDirectory where
  plugins : List (String × CDPlugin) := []
  upnphost : String := ""
  upnpport : Int := 0
  rootalias : String := ""
  updateID : String := "1"
  rootdir : List UpSong := []
  last_objid : String := ""

inductive UrlTransReturn
  | error
  | proxy
  | redirect
deriving DecidableEq

/-- The answer to a request: the one of an action, a C++ exception, or the one of `translateurl`. -/
inductive CDReply
  | success (data : List (String × String))
  | invalidParam
  | raises
  | translated (method : UrlTransReturn) (url : String)
  | noReply

/-- The commands which a request executes, and the answer. -/
structure CDOut where
  commands : List PluginCommand := []
  reply : CDReply := .noReply

namespace CDConfig

variable (cfg : CDConfig)

def getBoolOptionValue (nm : String) (dflt : Bool) : Bool :=
  match cfg.options nm with
  | none => dflt
  | some value => if value = "" then dflt else stringToBool value

def getIntOptionValue (nm : String) (dflt : Int) : Int :=
  match cfg.options nm with
  | none => dflt
  | some value => if value = "" then dflt else atoi value

def microhttpport : Int := cfg.getIntOptionValue "plgmicrohttpport" 49149

def getpathprefix (name : String) : String := "/" ++ name

/-- The path which `startPluginCmd` executes. -/
def exepath (appname : String) : String :=
  path_cat (path_cat (path_cat cfg.g_datadir "cdplugins") appname) (appname ++ "-app.py")

def startPluginCmd (appname host : String) (port : Int) (pathpref upnphost : String)
    (upnpport : Int) : PluginCommand where
  exepath := cfg.exepath appname
  env :=
    ["PYTHONPATH=" ++ path_cat cfg.g_datadir "cdplugins" ++ ":" ++
        path_cat cfg.g_datadir "cdplugins/pycommon" ++ ":" ++
        path_cat cfg.g_datadir ("cdplugins/" ++ appname),
      "UPMPD_CONFIG=" ++ cfg.g_configfilename,
      "UPMPD_HTTPHOSTPORT=" ++ host ++ ":" ++ lltodecstr port,
      "UPMPD_PATHPREFIX=" ++ pathpref] ++
    (if (cfg.options "webserverdocumentroot").getD "" = "" then []
    else
      ["UPMPD_UPNPHOSTPORT=" ++ upnphost ++ ":" ++ lltodecstr upnpport,
        "UPMPD_UPNPDOCROOT=" ++ path_cat (path_cat cfg.g_datadir "www") appname])

def doproxy (name : String) : Bool :=
  cfg.options "plgproxymethod" = some "proxy" || (cfg.enable_spotify && name = "spotify")

end CDConfig

namespace UpSong

def container (id pid title : String) : UpSong :=
  { iscontainer := true, id, parentid := pid, title, searchable := true }

end UpSong

/-- The text between the first two dollars. -/
def appForId (id : String) : String :=
  match (Lines.cut '$' id.toList).2 with
  | none => ""
  | some rest =>
      match Lines.cut '$' rest with
      | (_, none) => ""
      | (app, some _) => String.ofList app

def pluginRootFromObjid (objid : String) : String :=
  if appForId objid = "" then "0" else "0$" ++ appForId objid ++ "$"

/-- The parameter is normally a path, but this works with an URL too. -/
def firstpathelt (path : String) : String :=
  let rest :=
    match Text.find "://".toList path.toList with
    | some pos => (path.toList.drop (pos + 3)).dropWhile (· ≠ '/')
    | none => path.toList
  String.ofList ((rest.dropWhile (· = '/')).takeWhile (· ≠ '/'))

/-- `stringtoupper` of the first character of a name. -/
def capitalize (entry : String) : String :=
  match entry.toList with
  | [] => ""
  | c :: rest => String.ofList (c.toUpper :: rest)

namespace PlgWithSlave

theorem browse_name (decode : String → Option Json) (s : PlgWithSlave) (objid : String)
    (stidx cnt : Int) (flg : BrowseFlag) (env : SlaveEnv) :
    (s.browse decode objid stidx cnt flg env).1.m_name = s.m_name := by
  have slave : ∀ (s : PlgWithSlave) (cnt : Int),
      (s.browseSlave decode objid stidx cnt flg env).1.m_name = s.m_name := by
    intro s cnt
    unfold browseSlave
    repeat' split
    all_goals rfl
  unfold browse
  split
  · split
    · exact slave s cnt
    · dsimp only
      split
      · exact slave _ cnt
      · split
        · rfl
        · exact slave _ _
  · rfl

theorem search_name (decode : String → Option Json) (s : PlgWithSlave) (ctid : String)
    (stidx cnt : Int) (searchstr : String) (env : SlaveEnv) :
    (s.search decode ctid stidx cnt searchstr env).1.m_name = s.m_name := by
  unfold search
  split
  · split
    · rfl
    · dsimp only
      split
      · rfl
      · split
        · rfl
        · split
          · rfl
          · rfl
  · rfl

end PlgWithSlave

namespace CDPlugin

variable (plugin : CDPlugin)

/-- `get_media_url` of one thread, once the command runs or not. -/
def get_media_url (started : Bool) (path : String) (env : CDEnv) : CDPlugin × String :=
  if started then
    if plugin.laststream.path ≠ path ∨ env.slave.now - plugin.laststream.opentime > 10 then
      match env.slave.callproc "trackuri" [("path", path)] with
      | none => (plugin, "")
      | some res =>
          match res "media_url" with
          | none => (plugin, "")
          | some media_url =>
              ({ plugin with laststream := ⟨path, media_url, env.slave.now⟩ }, media_url)
    else (plugin, plugin.laststream.media_url)
  else (plugin, "")

theorem get_media_url_name (started : Bool) (path : String) (env : CDEnv) :
    (plugin.get_media_url started path env).1.plg.m_name = plugin.plg.m_name := by
  unfold get_media_url
  split
  · split
    · split
      · rfl
      · split
        · rfl
        · rfl
    · rfl
  · rfl

def browse (cfg : CDConfig) (started : Bool) (objid : String) (stidx cnt : Int)
    (flg : BrowseFlag) (env : CDEnv) : CDPlugin × Option (Int × List UpSong) :=
  let (plg, result) :=
    plugin.plg.browse cfg.decode objid stidx cnt flg { env.slave with running := started }
  ({ plugin with plg }, result)

def search (cfg : CDConfig) (started : Bool) (ctid : String) (stidx cnt : Int)
    (searchstr : String) (env : CDEnv) : CDPlugin × Option (Int × List UpSong) :=
  let (plg, result) :=
    plugin.plg.search cfg.decode ctid stidx cnt searchstr { env.slave with running := started }
  ({ plugin with plg }, result)

theorem browse_name (cfg : CDConfig) (started : Bool) (objid : String) (stidx cnt : Int)
    (flg : BrowseFlag) (env : CDEnv) :
    (plugin.browse cfg started objid stidx cnt flg env).1.plg.m_name = plugin.plg.m_name := by
  have kept := PlgWithSlave.browse_name cfg.decode plugin.plg objid stidx cnt flg
    { env.slave with running := started }
  unfold browse
  generalize plugin.plg.browse cfg.decode objid stidx cnt flg _ = result at kept ⊢
  exact kept

theorem search_name (cfg : CDConfig) (started : Bool) (ctid : String) (stidx cnt : Int)
    (searchstr : String) (env : CDEnv) :
    (plugin.search cfg started ctid stidx cnt searchstr env).1.plg.m_name =
      plugin.plg.m_name := by
  have kept := PlgWithSlave.search_name cfg.decode plugin.plg ctid stidx cnt searchstr
    { env.slave with running := started }
  unfold search
  generalize plugin.plg.search cfg.decode ctid stidx cnt searchstr _ = result at kept ⊢
  exact kept

end CDPlugin

namespace ContentDirectory

variable (cfg : CDConfig) (cd : ContentDirectory)

/-- The entries for which the configuration has a user or an autostart. -/
def pluginEntries (entries : List String) : List String :=
  entries.filter fun entry =>
    entry ≠ "pycommon" &&
      ((cfg.options (entry ++ "user")).isSome || (cfg.options (entry ++ "autostart")).isSome)

def rootEntry (entry : String) : UpSong :=
  UpSong.container ("0$" ++ entry ++ "$") "0"
    ((cfg.options (entry ++ "title")).getD (capitalize entry))

def makerootdir (listdir : Option (List String)) : ContentDirectory × Bool :=
  match listdir with
  | none => ({ cd with rootdir := [] }, false)
  | some entries =>
      match pluginEntries cfg entries with
      | [] => ({ cd with rootdir := [UpSong.item "0$none$" "0" "No services found"] }, false)
      | plugins => ({ cd with rootdir := plugins.map (rootEntry cfg) }, true)

/-- The total and the entries. -/
def readroot (offs cnt : Int) (env : CDEnv) : ContentDirectory × Nat × List UpSong :=
  let cd := if cd.rootdir = [] then (cd.makerootdir cfg env.listdir).1 else cd
  let cnt := if cnt ≤ 0 then (cd.rootdir.length : Int) else cnt
  if offs < 0 ∨ cnt ≤ 0 then (cd, cd.rootdir.length, [])
  else (cd, cd.rootdir.length, (cd.rootdir.drop offs.toNat).take cnt.toNat)

def maybeInit (env : CDEnv) : ContentDirectory :=
  if cd.upnphost = "" then
    match env.ipv4 with
    | none => cd
    | some (host, port) =>
        { cd with
          upnphost := host, upnpport := port,
          rootalias := (cfg.options "msrootalias").getD cd.rootalias }
  else cd

def microhttphost (env : CDEnv) : ContentDirectory × String :=
  let host := (cfg.options "plgmicrohttphost").getD ""
  if host = "" then
    let cd := cd.maybeInit cfg env
    (cd, cd.upnphost)
  else (cd, host)

/-- A plugin which is not there is made. -/
def pluginForApp (appname : String) (env : CDEnv) : ContentDirectory × CDPlugin :=
  match cd.plugins.lookup appname with
  | some plugin => (cd, plugin)
  | none =>
      let cd := cd.maybeInit cfg env
      let plugin : CDPlugin := { plg := PlgWithSlave.init appname env.slave.now }
      ({ cd with plugins := Dict.set cd.plugins appname plugin }, plugin)

/-- The login which follows a start has no effect here. A command which has failed is not
restarted. -/
def maybeStartCmd (plugin : CDPlugin) (env : CDEnv) :
    ContentDirectory × CDPlugin × Bool × List PluginCommand :=
  if plugin.running then (cd, plugin, true, [])
  else
    let (cd, host) := cd.microhttphost cfg env
    let name := plugin.plg.m_name
    let command := cfg.startPluginCmd name host cfg.microhttpport (CDConfig.getpathprefix name)
      cd.upnphost cd.upnpport
    if plugin.failed then (cd, plugin, false, [])
    else if env.startExec then (cd, { plugin with running := true }, true, [command])
    else (cd, plugin, false, [command])

/-- A call on the plugin of an application, whose command is started first. -/
def onPlugin {β : Type} (appname : String) (env : CDEnv) (call : CDPlugin → Bool → CDPlugin × β) :
    ContentDirectory × List PluginCommand × β :=
  let (cd, plugin) := cd.pluginForApp cfg appname env
  let (cd, plugin, started, commands) := cd.maybeStartCmd cfg plugin env
  let (plugin, result) := call plugin started
  ({ cd with plugins := Dict.set cd.plugins appname plugin }, commands, result)

/-- Start the plugin of an entry of the root directory when it has a long init. -/
def maybeStartPlugin (env : String → CDEnv) (started : ContentDirectory × List PluginCommand)
    (entry : UpSong) : ContentDirectory × List PluginCommand :=
  let (cd, commands) := started
  let app := appForId entry.id
  if cfg.getBoolOptionValue (app ++ "autostart") false then
    let (cd, more, ()) := cd.onPlugin cfg app (env app) fun plugin _ => (plugin, ())
    (cd, commands ++ more)
  else (cd, commands)

def maybeStartSomePlugins (env : String → CDEnv) : ContentDirectory × List PluginCommand :=
  cd.rootdir.foldl (maybeStartPlugin cfg env) (cd, [])

/-- The client's id under the alias of the root. The erasure of the first character of an empty
id is an exception. -/
def aliased (id : String) : Option String :=
  if cd.rootalias ≠ "" ∧ beginswith id cd.rootalias = false then
    match id.toList with
    | [] => none
    | _ :: rest => some (cd.rootalias ++ String.ofList rest)
  else some id

/-- The output arguments of both actions. -/
def answer (totalmatches : Nat) (entries : List UpSong) : CDReply :=
  .success
    [("Result", UpSong.wrapDIDL (String.join (entries.map (·.didl cfg.soap false)))),
      ("NumberReturned", toString entries.length), ("TotalMatches", toString totalmatches),
      ("UpdateID", cd.updateID)]

/-- The answer with the result of a plugin, whose total becomes a `size_t`. -/
def pluginAnswer (result : Option (Int × List UpSong)) : CDReply :=
  match result with
  | none => .raises
  | some (total, entries) => cd.answer cfg (total % 2 ^ 64).toNat entries

end ContentDirectory

/-- The arguments of an action, where they are. -/
structure BrowseArgs where
  ObjectID : Option String
  BrowseFlag : Option String
  Filter : Option String
  StartingIndex : Option Int
  RequestedCount : Option Int
  SortCriteria : Option String

structure SearchArgs where
  ContainerID : Option String
  SearchCriteria : Option String
  Filter : Option String
  StartingIndex : Option Int
  RequestedCount : Option Int
  SortCriteria : Option String

namespace ContentDirectory

variable (cfg : CDConfig) (cd : ContentDirectory)

/-- `actBrowse` once it has its arguments. -/
def browseId (id flag : String) (idx cnt : Int) (env : CDEnv) : ContentDirectory × CDOut :=
  let cd := { cd with last_objid := id }
  let bf := if flag = "BrowseMetadata" then BrowseFlag.bfMeta else .bfChildren
  if id = "0" then
    match bf with
    | .bfChildren =>
        let (cd, total, entries) := cd.readroot cfg idx cnt env
        (cd, { reply := cd.answer cfg total entries })
    | .bfMeta => (cd, { reply := cd.answer cfg 1 [UpSong.container "0" "0" ""] })
  else
    let (cd, commands, result) := cd.onPlugin cfg (appForId id) env
      fun plugin started => plugin.browse cfg started id idx cnt bf env
    (cd, { commands, reply := cd.pluginAnswer cfg result })

def actBrowse (sc : BrowseArgs) (env : CDEnv) : ContentDirectory × CDOut :=
  match sc.ObjectID with
  | none => (cd, { reply := .invalidParam })
  | some id =>
      match cd.aliased id with
      | none => (cd, { reply := .raises })
      | some id =>
          match sc.BrowseFlag, sc.Filter, sc.StartingIndex, sc.RequestedCount, sc.SortCriteria with
          | some flag, some _, some idx, some cnt, some _ => cd.browseId cfg id flag idx cnt env
          | _, _, _, _, _ => (cd, { reply := .invalidParam })

/-- `actSearch` once it has its arguments. A search in the root is one in the root of the plugin
which was browsed last. -/
def searchId (id searchstr : String) (idx cnt : Int) (env : CDEnv) : ContentDirectory × CDOut :=
  let id := if id = "0" then pluginRootFromObjid cd.last_objid else id
  let (cd, commands, result) := cd.onPlugin cfg (appForId id) env
    fun plugin started => plugin.search cfg started id idx cnt searchstr env
  (cd, { commands, reply := cd.pluginAnswer cfg result })

def actSearch (sc : SearchArgs) (env : CDEnv) : ContentDirectory × CDOut :=
  match sc.ContainerID with
  | none => (cd, { reply := .invalidParam })
  | some id =>
      match cd.aliased id with
      | none => (cd, { reply := .raises })
      | some id =>
          match sc.SearchCriteria, sc.Filter, sc.StartingIndex, sc.RequestedCount,
              sc.SortCriteria with
          | some searchstr, some _, some idx, some cnt, some _ =>
              cd.searchId cfg id searchstr idx cnt env
          | _, _, _, _, _ => (cd, { reply := .invalidParam })

def translateurl (url : String) (trackId : Option String) (env : CDEnv) :
    ContentDirectory × CDOut :=
  let app := firstpathelt url
  let path :=
    if trackId.getD "" = "" then url else url ++ "?version=1&trackId=" ++ trackId.getD ""
  let (cd, commands, media_url) := cd.onPlugin cfg app env
    fun plugin started => plugin.get_media_url started path env
  let reply :=
    if media_url = "" then CDReply.translated .error ""
    else if cfg.doproxy app then
      if app = "spotify" ∧ cfg.enable_spotify = false then .translated .error media_url
      else .translated .proxy media_url
    else .translated .redirect media_url
  (cd, { commands, reply })

/-- The constructor, the requests of the network, and the end of the process of a plugin. -/
inductive Act
  | construct (env : String → CDEnv)
  | browse (sc : BrowseArgs) (env : CDEnv)
  | search (sc : SearchArgs) (env : CDEnv)
  | translate (url : String) (trackId : Option String) (env : CDEnv)
  | ended (name : String) (failed : Bool)

/-- The process of a plugin has ended, and may not be restarted. -/
def processEnded (name : String) (failed : Bool) : ContentDirectory :=
  { cd with
    plugins := cd.plugins.map fun (key, plugin) =>
      if key = name then
        (key, { plugin with running := false, failed := plugin.failed || failed })
      else (key, plugin) }

def step (cd : ContentDirectory) : Act → Option (ContentDirectory × CDOut)
  | .construct env =>
      let (cd, commands) := cd.maybeStartSomePlugins cfg env
      some (cd, { commands })
  | .browse sc env => some (cd.actBrowse cfg sc env)
  | .search sc env => some (cd.actSearch cfg sc env)
  | .translate url trackId env => some (cd.translateurl cfg url trackId env)
  | .ended name failed => some (cd.processEnded name failed, {})

end ContentDirectory

end Upmpdcli
