import Upmpdcli.ContentDirectory

set_option autoImplicit false

/- Which plugins the requests of the network reach. -/
namespace Upmpdcli

namespace ContentDirectory

variable {cfg : CDConfig} {cd t : ContentDirectory}

def names (cd : ContentDirectory) : List String := cd.plugins.map Prod.fst

/-- A plugin is under its own name. -/
def Keyed (cd : ContentDirectory) : Prop := ∀ entry ∈ cd.plugins, entry.2.plg.m_name = entry.1

/-- An entry of the root directory. -/
def Available (cd : ContentDirectory) (name : String) : Prop :=
  ∃ entry ∈ cd.rootdir, entry.iscontainer = true ∧ entry.id = "0$" ++ name ++ "$"

/-- What the calls on the plugins of some applications do. -/
structure Reached (cfg : CDConfig) (cd : ContentDirectory) (apps : List String)
    (t : ContentDirectory) (commands : List PluginCommand) : Prop where
  rootdir : t.rootdir = cd.rootdir
  names : ∀ name, name ∈ t.names ↔ name ∈ cd.names ∨ name ∈ apps
  commands : ∀ command ∈ commands, ∃ name ∈ apps, command.exepath = cfg.exepath name
  keyed : t.Keyed

theorem Reached.refl (keyed : cd.Keyed) : Reached cfg cd [] cd [] :=
  ⟨rfl, by simp, nofun, keyed⟩

theorem Reached.trans {u : ContentDirectory} {first second : List String}
    {commands more : List PluginCommand} (reached : Reached cfg cd first t commands)
    (later : Reached cfg t second u more) :
    Reached cfg cd (first ++ second) u (commands ++ more) where
  rootdir := later.rootdir.trans reached.rootdir
  names := by
    intro name
    rw [later.names, reached.names, List.mem_append, or_assoc]
  commands := by
    intro command member
    rcases List.mem_append.mp member with before | after
    · obtain ⟨name, app, path⟩ := reached.commands command before
      exact ⟨name, List.mem_append_left _ app, path⟩
    · obtain ⟨name, app, path⟩ := later.commands command after
      exact ⟨name, List.mem_append_right _ app, path⟩
  keyed := later.keyed

theorem maybeInit_plugins (env : CDEnv) : (cd.maybeInit cfg env).plugins = cd.plugins := by
  unfold maybeInit
  split
  · split
    · rfl
    · rfl
  · rfl

theorem maybeInit_rootdir (env : CDEnv) : (cd.maybeInit cfg env).rootdir = cd.rootdir := by
  unfold maybeInit
  split
  · split
    · rfl
    · rfl
  · rfl

theorem mem_names_set (plugins : List (String × CDPlugin)) (key name : String)
    (plugin : CDPlugin) :
    name ∈ (Dict.set plugins key plugin).map Prod.fst ↔
      name ∈ plugins.map Prod.fst ∨ name = key := by
  rw [Dict.keys_set]
  split
  · rename_i there
    constructor
    · exact .inl
    · rintro (old | rfl)
      · exact old
      · exact there
  · rw [List.mem_append, List.mem_singleton]

/-- What `pluginForApp` gives. -/
structure Found (cd : ContentDirectory) (appname : String) (t : ContentDirectory)
    (plugin : CDPlugin) : Prop where
  rootdir : t.rootdir = cd.rootdir
  names : ∀ name, name ∈ t.names ↔ name ∈ cd.names ∨ name = appname
  keyed : t.Keyed
  named : plugin.plg.m_name = appname

variable (cfg) in
theorem pluginForApp_found (keyed : cd.Keyed) (appname : String) (env : CDEnv) :
    Found cd appname (cd.pluginForApp cfg appname env).1 (cd.pluginForApp cfg appname env).2 := by
  unfold pluginForApp
  split
  · rename_i plugin there
    have member := Dict.mem_of_lookup there
    refine ⟨rfl, fun name => ⟨.inl, ?_⟩, keyed, keyed _ member⟩
    rintro (old | rfl)
    · exact old
    · exact List.mem_map.mpr ⟨_, member, rfl⟩
  · refine ⟨maybeInit_rootdir env, ?_, ?_, rfl⟩
    · intro name
      dsimp only [ContentDirectory.names]
      rw [mem_names_set, maybeInit_plugins]
    · intro entry member
      rcases Dict.mem_set member with rfl | old
      · rfl
      · rw [maybeInit_plugins] at old
        exact keyed entry old

variable (cfg cd) in
/-- What `maybeStartCmd` does to the plugins, and what it executes. -/
theorem maybeStartCmd_spec (plugin : CDPlugin) (env : CDEnv) :
    (cd.maybeStartCmd cfg plugin env).1.rootdir = cd.rootdir ∧
      (cd.maybeStartCmd cfg plugin env).1.plugins = cd.plugins ∧
      (cd.maybeStartCmd cfg plugin env).2.1.plg = plugin.plg ∧
      ∀ command ∈ (cd.maybeStartCmd cfg plugin env).2.2.2,
        command.exepath = cfg.exepath plugin.plg.m_name := by
  have host : (cd.microhttphost cfg env).1.rootdir = cd.rootdir ∧
      (cd.microhttphost cfg env).1.plugins = cd.plugins := by
    unfold microhttphost
    dsimp only
    split
    · exact ⟨maybeInit_rootdir env, maybeInit_plugins env⟩
    · exact ⟨rfl, rfl⟩
  unfold maybeStartCmd
  split
  · exact ⟨rfl, rfl, rfl, nofun⟩
  · dsimp only
    split
    · exact ⟨host.1, host.2, rfl, nofun⟩
    · split
      · refine ⟨host.1, host.2, rfl, ?_⟩
        intro command member
        rw [List.mem_singleton.mp member]
        rfl
      · refine ⟨host.1, host.2, rfl, ?_⟩
        intro command member
        rw [List.mem_singleton.mp member]
        rfl

theorem onPlugin_reached {β : Type} (keyed : cd.Keyed) (appname : String) (env : CDEnv)
    (call : CDPlugin → Bool → CDPlugin × β)
    (keeps : ∀ plugin started, (call plugin started).1.plg.m_name = plugin.plg.m_name) :
    Reached cfg cd [appname] (cd.onPlugin cfg appname env call).1
      (cd.onPlugin cfg appname env call).2.1 := by
  unfold onPlugin
  have found := pluginForApp_found cfg keyed appname env
  generalize cd.pluginForApp cfg appname env = one at found ⊢
  obtain ⟨cd1, plugin⟩ := one
  have started := maybeStartCmd_spec cfg cd1 plugin env
  dsimp only at found ⊢
  generalize cd1.maybeStartCmd cfg plugin env = two at started ⊢
  obtain ⟨cd2, plugin', running, commands⟩ := two
  obtain ⟨rootdir, plugins, same, executed⟩ := started
  dsimp only at rootdir plugins same executed ⊢
  have name : (call plugin' running).1.plg.m_name = appname := by
    rw [keeps, same, found.named]
  refine ⟨rootdir.trans found.rootdir, ?_, ?_, ?_⟩
  · intro other
    have given : other ∈ cd1.plugins.map Prod.fst ↔ other ∈ cd.names ∨ other = appname :=
      found.names other
    change other ∈ (Dict.set cd2.plugins appname _).map Prod.fst ↔ _
    rw [mem_names_set, plugins, given, or_assoc, or_self, List.mem_singleton]
  · intro command member
    refine ⟨appname, List.mem_singleton.mpr rfl, ?_⟩
    rw [executed command member, found.named]
  · intro entry member
    rcases Dict.mem_set member with rfl | old
    · exact name
    · rw [plugins] at old
      exact found.keyed entry old

/-- The plugins which are started by the constructor. -/
def autostarted (cfg : CDConfig) (rootdir : List UpSong) : List String :=
  (rootdir.map fun entry => appForId entry.id).filter fun app =>
    cfg.getBoolOptionValue (app ++ "autostart") false

/-- The constructor, along the entries of the root directory. -/
theorem Reached.startPlugins {first : List String} {commands : List PluginCommand}
    (reached : Reached cfg cd first t commands) (env : String → CDEnv) (entries : List UpSong) :
    Reached cfg cd (first ++ autostarted cfg entries)
      (entries.foldl (maybeStartPlugin cfg env) (t, commands)).1
      (entries.foldl (maybeStartPlugin cfg env) (t, commands)).2 := by
  induction entries generalizing first t commands with
  | nil =>
      rw [autostarted, List.map_nil, List.filter_nil, List.append_nil]
      exact reached
  | cons entry rest ih =>
      rw [List.foldl_cons]
      by_cases auto : cfg.getBoolOptionValue (appForId entry.id ++ "autostart") false = true
      · have one := @onPlugin_reached cfg _ _ reached.keyed (appForId entry.id)
          (env (appForId entry.id)) (fun plugin _ => (plugin, ())) fun _ _ => rfl
        have next := ih (reached.trans one)
        have cut : autostarted cfg (entry :: rest) =
            [appForId entry.id] ++ autostarted cfg rest := by
          rw [autostarted, List.map_cons, List.filter_cons, if_pos auto]
          rfl
        rw [cut, ← List.append_assoc, maybeStartPlugin, if_pos auto]
        exact next
      · have cut : autostarted cfg (entry :: rest) = autostarted cfg rest := by
          rw [autostarted, List.map_cons, List.filter_cons, if_neg auto]
          rfl
        rw [cut, maybeStartPlugin, if_neg auto]
        exact ih reached

variable (cfg) in
theorem maybeStartSomePlugins_reached (keyed : cd.Keyed) (env : String → CDEnv) :
    Reached cfg cd (autostarted cfg cd.rootdir) (cd.maybeStartSomePlugins cfg env).1
      (cd.maybeStartSomePlugins cfg env).2 :=
  (Reached.refl keyed).startPlugins env cd.rootdir

end ContentDirectory

namespace CDReply

/-- The code or the `Error` which a client gets. -/
def Refuses : CDReply → Prop
  | .invalidParam => True
  | .translated .error _ => True
  | _ => False

end CDReply

namespace BrowseArgs

/-- Nothing is missing after the id. -/
def complete (sc : BrowseArgs) : Bool :=
  sc.BrowseFlag.isSome && sc.Filter.isSome && sc.StartingIndex.isSome &&
    sc.RequestedCount.isSome && sc.SortCriteria.isSome

end BrowseArgs

namespace SearchArgs

def complete (sc : SearchArgs) : Bool :=
  sc.SearchCriteria.isSome && sc.Filter.isSome && sc.StartingIndex.isSome &&
    sc.RequestedCount.isSome && sc.SortCriteria.isSome

end SearchArgs

namespace ContentDirectory

variable {cfg : CDConfig} {cd s t : ContentDirectory} {act : Act} {out : CDOut}

/-- The name of the plugin in the text of a client. There is none in the id of the root, which is
browsed without a plugin, and the empty name in an id which cannot be read. -/
def Act.app (cd : ContentDirectory) : Act → Option String
  | .browse sc _ =>
      sc.ObjectID.bind fun id =>
        match cd.aliased id with
        | none => some ""
        | some id => if id = "0" then none else some (appForId id)
  | .search sc _ =>
      sc.ContainerID.map fun id =>
        match cd.aliased id with
        | none => ""
        | some id => appForId (if id = "0" then pluginRootFromObjid cd.last_objid else id)
  | .translate url _ _ => some (firstpathelt url)
  | _ => none

/-- The plugins which a request reaches are available, the others are refused, and no plugin is
added which is not available. -/
structure Confined (cfg : CDConfig) (s : ContentDirectory) (act : Act) (t : ContentDirectory)
    (out : CDOut) : Prop where
  commands : ∀ command ∈ out.commands, ∃ name, s.Available name ∧
    command.exepath = cfg.exepath name
  plugins : ∀ name ∈ t.names, name ∈ s.names ∨ s.Available name
  refused : ∀ app ∈ act.app s, ¬ s.Available app → out.reply.Refuses

/-- A request which lacks no argument is for an available plugin, and the plugins of the
constructor are available. -/
def Named (cfg : CDConfig) (s : ContentDirectory) (act : Act) (_ : ContentDirectory)
    (_ : CDOut) : Prop :=
  match act with
  | .construct _ => ∀ app ∈ autostarted cfg s.rootdir, s.Available app
  | .browse sc _ =>
      ∀ id ∈ sc.ObjectID, s.aliased id = none ∨ sc.complete = true →
        ∀ app ∈ act.app s, s.Available app
  | .search sc _ =>
      ∀ id ∈ sc.ContainerID, s.aliased id = none ∨ sc.complete = true →
        ∀ app ∈ act.app s, s.Available app
  | .translate _ _ _ => ∀ app ∈ act.app s, s.Available app
  | .ended _ _ => True

/-- The invariant. -/
structure Tidy (cd : ContentDirectory) : Prop where
  keyed : cd.Keyed
  names : ∀ name ∈ cd.names, cd.Available name

theorem Tidy.of_confined (tidy : s.Tidy) (keyed : t.Keyed)
    (rootdir : t.rootdir = s.rootdir ∨ s.rootdir = []) (confined : Confined cfg s act t out) :
    t.Tidy := by
  refine ⟨keyed, ?_⟩
  intro name member
  have available : s.Available name := by
    rcases confined.plugins name member with old | available
    · exact tidy.names name old
    · exact available
  rcases rootdir with same | empty
  · unfold Available
    rw [same]
    exact available
  · obtain ⟨entry, there, _⟩ := available
    rw [empty] at there
    cases there

variable (act) in
/-- The plugins of some applications are reached: they are to be available. -/
theorem Tidy.confined_iff_of_reached (tidy : s.Tidy) {apps : List String}
    (reached : Reached cfg s apps t out.commands) (text : ∀ app ∈ act.app s, app ∈ apps) :
    (Confined cfg s act t out ↔ ∀ app ∈ apps, s.Available app) ∧
      (Confined cfg s act t out → t.Tidy) := by
  refine ⟨⟨?_, ?_⟩, tidy.of_confined reached.keyed (.inl reached.rootdir)⟩
  · intro confined app member
    rcases confined.plugins app ((reached.names app).mpr (.inr member)) with old | available
    · exact tidy.names app old
    · exact available
  · intro available
    refine ⟨?_, ?_, ?_⟩
    · intro command member
      obtain ⟨name, app, path⟩ := reached.commands command member
      exact ⟨name, available name app, path⟩
    · intro name member
      exact ((reached.names name).mp member).imp id (available name ·)
    · intro app there missing
      exact absurd (available app (text app there)) missing

variable (cfg act out) in
/-- No plugin is reached: the text of the client is refused when it names one. -/
theorem Tidy.confined_iff_of_idle (tidy : s.Tidy) (keyed : t.Keyed) (names : t.names = s.names)
    (rootdir : t.rootdir = s.rootdir ∨ s.rootdir = []) (commands : out.commands = []) :
    (Confined cfg s act t out ↔ ∀ app ∈ act.app s, ¬ s.Available app → out.reply.Refuses) ∧
      (Confined cfg s act t out → t.Tidy) := by
  refine ⟨⟨fun confined => confined.refused, ?_⟩, tidy.of_confined keyed rootdir⟩
  intro refused
  refine ⟨?_, ?_, refused⟩
  · rw [commands]
    nofun
  · intro name member
    rw [names] at member
    exact .inl member

variable (cfg) in
theorem actBrowse_of_complete {sc : BrowseArgs} {id resolved : String}
    (given : sc.ObjectID = some id) (under : cd.aliased id = some resolved)
    (complete : sc.complete = true) (env : CDEnv) :
    ∃ flag idx cnt, cd.actBrowse cfg sc env = cd.browseId cfg resolved flag idx cnt env := by
  obtain ⟨_, flag, filter, idx, cnt, crit⟩ := sc
  simp only [BrowseArgs.complete, Bool.and_eq_true, Option.isSome_iff_exists] at complete
  obtain ⟨⟨⟨⟨⟨flag, rfl⟩, filter, rfl⟩, idx, rfl⟩, cnt, rfl⟩, crit, rfl⟩ := complete
  refine ⟨flag, idx, cnt, ?_⟩
  cases given
  rw [actBrowse]
  dsimp only
  rw [under]

theorem actBrowse_of_incomplete {sc : BrowseArgs} {id resolved : String}
    (given : sc.ObjectID = some id) (under : cd.aliased id = some resolved)
    (incomplete : sc.complete = false) (env : CDEnv) :
    cd.actBrowse cfg sc env = (cd, { reply := .invalidParam }) := by
  obtain ⟨_, flag, filter, idx, cnt, crit⟩ := sc
  cases given
  rw [actBrowse]
  dsimp only
  rw [under]
  dsimp only
  split
  · cases incomplete
  · rfl

variable (cfg) in
theorem actSearch_of_complete {sc : SearchArgs} {id resolved : String}
    (given : sc.ContainerID = some id) (under : cd.aliased id = some resolved)
    (complete : sc.complete = true) (env : CDEnv) :
    ∃ searchstr idx cnt,
      cd.actSearch cfg sc env = cd.searchId cfg resolved searchstr idx cnt env := by
  obtain ⟨_, searchstr, filter, idx, cnt, crit⟩ := sc
  simp only [SearchArgs.complete, Bool.and_eq_true, Option.isSome_iff_exists] at complete
  obtain ⟨⟨⟨⟨⟨searchstr, rfl⟩, filter, rfl⟩, idx, rfl⟩, cnt, rfl⟩, crit, rfl⟩ := complete
  refine ⟨searchstr, idx, cnt, ?_⟩
  cases given
  rw [actSearch]
  dsimp only
  rw [under]

theorem actSearch_of_incomplete {sc : SearchArgs} {id resolved : String}
    (given : sc.ContainerID = some id) (under : cd.aliased id = some resolved)
    (incomplete : sc.complete = false) (env : CDEnv) :
    cd.actSearch cfg sc env = (cd, { reply := .invalidParam }) := by
  obtain ⟨_, searchstr, filter, idx, cnt, crit⟩ := sc
  cases given
  rw [actSearch]
  dsimp only
  rw [under]
  dsimp only
  split
  · cases incomplete
  · rfl

variable (cfg cd) in
theorem readroot_keeps (offs cnt : Int) (env : CDEnv) :
    (cd.readroot cfg offs cnt env).1.plugins = cd.plugins ∧
      ((cd.readroot cfg offs cnt env).1.rootdir = cd.rootdir ∨ cd.rootdir = []) := by
  have made : (if cd.rootdir = [] then (cd.makerootdir cfg env.listdir).1 else cd).plugins =
        cd.plugins ∧
      ((if cd.rootdir = [] then (cd.makerootdir cfg env.listdir).1 else cd).rootdir =
        cd.rootdir ∨ cd.rootdir = []) := by
    split
    · rename_i empty
      refine ⟨?_, .inr empty⟩
      unfold makerootdir
      split
      · rfl
      · split
        · rfl
        · rfl
    · exact ⟨rfl, .inl rfl⟩
  unfold readroot
  dsimp only
  generalize (if cd.rootdir = [] then (cd.makerootdir cfg env.listdir).1 else cd) = ready at made ⊢
  generalize (if cnt ≤ 0 then (ready.rootdir.length : Int) else cnt) = count
  split
  · exact made
  · exact made

variable (cfg cd) in
/-- The browse of the root reaches no plugin. -/
theorem browseRoot_keeps (flag : String) (idx cnt : Int) (env : CDEnv) :
    (cd.browseId cfg "0" flag idx cnt env).1.plugins = cd.plugins ∧
      ((cd.browseId cfg "0" flag idx cnt env).1.rootdir = cd.rootdir ∨ cd.rootdir = []) ∧
      (cd.browseId cfg "0" flag idx cnt env).2.commands = [] := by
  unfold browseId
  dsimp only
  rw [if_pos rfl]
  split
  · have kept := readroot_keeps cfg { cd with last_objid := "0" } idx cnt env
    exact ⟨kept.1, kept.2, rfl⟩
  · exact ⟨rfl, .inl rfl, rfl⟩

theorem browseId_reached (keyed : cd.Keyed) {id : String} (inner : id ≠ "0") (flag : String)
    (idx cnt : Int) (env : CDEnv) :
    Reached cfg cd [appForId id] (cd.browseId cfg id flag idx cnt env).1
      (cd.browseId cfg id flag idx cnt env).2.commands := by
  unfold browseId
  dsimp only
  rw [if_neg inner]
  have reached := @onPlugin_reached cfg { cd with last_objid := id } _ keyed
    (appForId id) env
    (fun plugin started => plugin.browse cfg started id idx cnt
      (if flag = "BrowseMetadata" then BrowseFlag.bfMeta else .bfChildren) env)
    fun plugin started => plugin.browse_name cfg started id idx cnt _ env
  exact ⟨reached.rootdir, reached.names, reached.commands, reached.keyed⟩

theorem searchId_reached (keyed : cd.Keyed) (id searchstr : String) (idx cnt : Int)
    (env : CDEnv) :
    Reached cfg cd [appForId (if id = "0" then pluginRootFromObjid cd.last_objid else id)]
      (cd.searchId cfg id searchstr idx cnt env).1
      (cd.searchId cfg id searchstr idx cnt env).2.commands := by
  unfold searchId
  dsimp only
  generalize (if id = "0" then pluginRootFromObjid cd.last_objid else id) = id
  have reached := @onPlugin_reached cfg _ _ keyed (appForId id) env
    (fun plugin started => plugin.search cfg started id idx cnt searchstr env)
    fun plugin started => plugin.search_name cfg started id idx cnt searchstr env
  exact ⟨reached.rootdir, reached.names, reached.commands, reached.keyed⟩

theorem processEnded_names (name : String) (failed : Bool) :
    (cd.processEnded name failed).names = cd.names := by
  unfold processEnded ContentDirectory.names
  rw [List.map_map]
  refine List.map_congr_left ?_
  intro entry _
  dsimp only [Function.comp]
  split
  · rfl
  · rfl

theorem processEnded_keyed (keyed : cd.Keyed) (name : String) (failed : Bool) :
    (cd.processEnded name failed).Keyed := by
  intro entry member
  obtain ⟨old, there, rfl⟩ := List.mem_map.mp member
  have named := keyed old there
  dsimp only
  split
  · exact named
  · exact named

/-- The condition is exact at a step, and the invariant holds after it when it is confined. -/
def Agrees (cfg : CDConfig) (s : ContentDirectory) (act : Act) (t : ContentDirectory)
    (out : CDOut) : Prop :=
  (Confined cfg s act t out ↔ Named cfg s act t out) ∧ (Confined cfg s act t out → t.Tidy)

/-- A text without a plugin, or which is refused, changes nothing. -/
theorem Tidy.agrees_of_refused (tidy : s.Tidy) (keyed : t.Keyed) (names : t.names = s.names)
    (rootdir : t.rootdir = s.rootdir ∨ s.rootdir = []) (commands : out.commands = [])
    (refuses : ∀ app ∈ act.app s, out.reply.Refuses) (named : Named cfg s act t out) :
    Agrees cfg s act t out := by
  obtain ⟨iff, next⟩ := tidy.confined_iff_of_idle cfg act out keyed names rootdir commands
  refine ⟨⟨fun _ => named, fun _ => iff.mpr ?_⟩, next⟩
  intro app there _
  exact refuses app there

/-- An id which cannot be put under the alias. -/
theorem Tidy.agrees_of_raises (tidy : s.Tidy) (app : act.app s = some "")
    (named : Named cfg s act s { reply := .raises } ↔ s.Available "") :
    Agrees cfg s act s { reply := .raises } := by
  obtain ⟨iff, next⟩ := tidy.confined_iff_of_idle cfg act { reply := .raises }
    tidy.keyed rfl (.inl rfl) rfl
  refine ⟨iff.trans (Iff.trans ?_ named.symm), next⟩
  rw [app]
  constructor
  · intro refused
    by_contra missing
    exact refused "" rfl missing
  · rintro available _ ⟨⟩ missing
    exact absurd available missing

/-- The actions with an id: what is to be shown of one which has its arguments. -/
theorem Tidy.agrees_of_text (tidy : s.Tidy) {text : Option String} {complete : Bool}
    (named : ∀ t out, Named cfg s act t out ↔ ∀ id ∈ text, s.aliased id = none ∨ complete = true →
      ∀ app ∈ act.app s, s.Available app)
    {result : ContentDirectory × CDOut}
    (absent : text = none → result = (s, { reply := .invalidParam }))
    (raises : ∀ id, text = some id → s.aliased id = none →
      act.app s = some "" ∧ result = (s, { reply := .raises }))
    (incomplete : ∀ id resolved, text = some id → s.aliased id = some resolved →
      complete = false → result = (s, { reply := .invalidParam }))
    (served : ∀ id resolved, text = some id → s.aliased id = some resolved → complete = true →
      Agrees cfg s act result.1 result.2) : Agrees cfg s act result.1 result.2 := by
  cases given : text with
  | none =>
      rw [absent given]
      refine tidy.agrees_of_refused tidy.keyed rfl (.inl rfl) rfl (fun _ _ => trivial) ?_
      rw [named, given]
      nofun
  | some id =>
      cases under : s.aliased id with
      | none =>
          obtain ⟨app, same⟩ := raises id given under
          rw [same]
          refine tidy.agrees_of_raises app ?_
          rw [named]
          constructor
          · intro available
            exact available id given (.inl under) "" app
          · intro available _ _ _ app' there
            rw [app] at there
            cases there
            exact available
      | some resolved =>
          cases whole : complete with
          | true => exact served id resolved given under whole
          | false =>
              rw [incomplete id resolved given under whole]
              refine tidy.agrees_of_refused tidy.keyed rfl (.inl rfl) rfl (fun _ _ => trivial) ?_
              rw [named, given, whole]
              rintro _ ⟨⟩ (absent | absent)
              · rw [under] at absent
                cases absent
              · cases absent

/-- A request which reaches the plugin in its text. -/
theorem Tidy.agrees_of_reached (tidy : s.Tidy) {app : String}
    (reached : Reached cfg s [app] t out.commands) (text : act.app s = some app)
    (named : Named cfg s act t out ↔ ∀ app ∈ act.app s, s.Available app) :
    Agrees cfg s act t out := by
  obtain ⟨iff, next⟩ := tidy.confined_iff_of_reached act reached (by simp [text])
  refine ⟨iff.trans (Iff.trans ?_ named.symm), next⟩
  rw [text]
  constructor
  · rintro available _ ⟨⟩
    exact available app (List.mem_singleton.mpr rfl)
  · intro available name member
    rw [List.mem_singleton.mp member]
    exact available app rfl

variable (cfg) in
theorem Tidy.browse (tidy : s.Tidy) (sc : BrowseArgs) (env : CDEnv) :
    Agrees cfg s (.browse sc env) (s.actBrowse cfg sc env).1 (s.actBrowse cfg sc env).2 := by
  refine tidy.agrees_of_text (fun _ _ => Iff.rfl) ?_ ?_
    (fun id resolved given under incomplete => actBrowse_of_incomplete given under incomplete env)
    ?_
  · intro given
    rw [actBrowse, given]
  · intro id given under
    refine ⟨?_, ?_⟩
    · rw [Act.app, given, Option.bind_some, under]
    · rw [actBrowse, given]
      dsimp only
      rw [under]
  · intro id resolved given under complete
    obtain ⟨flag, idx, cnt, same⟩ := actBrowse_of_complete cfg given under complete env
    rw [same]
    by_cases root : resolved = "0"
    · subst root
      have app : (Act.browse sc env).app s = none := by
        rw [Act.app, given, Option.bind_some, under]
        rfl
      obtain ⟨plugins, rootdir, commands⟩ := browseRoot_keeps cfg s flag idx cnt env
      refine tidy.agrees_of_refused ?_ ?_ rootdir commands ?_ ?_
      · unfold Keyed
        rw [plugins]
        exact tidy.keyed
      · unfold ContentDirectory.names
        rw [plugins]
      · rw [app]
        nofun
      · intro _ _ _
        rw [app]
        nofun
    · have app : (Act.browse sc env).app s = some (appForId resolved) := by
        rw [Act.app, given, Option.bind_some, under]
        exact if_neg root
      refine tidy.agrees_of_reached (browseId_reached tidy.keyed root flag idx cnt env) app ?_
      exact ⟨fun named => named id given (.inr complete), fun available _ _ _ => available⟩

variable (cfg) in
theorem Tidy.search (tidy : s.Tidy) (sc : SearchArgs) (env : CDEnv) :
    Agrees cfg s (.search sc env) (s.actSearch cfg sc env).1 (s.actSearch cfg sc env).2 := by
  refine tidy.agrees_of_text (fun _ _ => Iff.rfl) ?_ ?_
    (fun id resolved given under incomplete => actSearch_of_incomplete given under incomplete env)
    ?_
  · intro given
    rw [actSearch, given]
  · intro id given under
    refine ⟨?_, ?_⟩
    · rw [Act.app, given, Option.map_some, under]
    · rw [actSearch, given]
      dsimp only
      rw [under]
  · intro id resolved given under complete
    obtain ⟨searchstr, idx, cnt, same⟩ :=
      actSearch_of_complete cfg given under complete env
    rw [same]
    have app : (Act.search sc env).app s = some (appForId
        (if resolved = "0" then pluginRootFromObjid s.last_objid else resolved)) := by
      rw [Act.app, given, Option.map_some, under]
    refine tidy.agrees_of_reached (searchId_reached tidy.keyed resolved searchstr idx cnt env) app ?_
    exact ⟨fun named => named id given (.inr complete), fun available _ _ _ => available⟩

theorem Tidy.translate (tidy : s.Tidy) (url : String) (trackId : Option String) (env : CDEnv) :
    Agrees cfg s (.translate url trackId env) (s.translateurl cfg url trackId env).1
      (s.translateurl cfg url trackId env).2 := by
  have reached := @onPlugin_reached cfg _ _ tidy.keyed (firstpathelt url) env
    (fun plugin started => plugin.get_media_url started
      (if trackId.getD "" = "" then url else url ++ "?version=1&trackId=" ++ trackId.getD "") env)
    fun plugin started => plugin.get_media_url_name started _ env
  refine tidy.agrees_of_reached ?_ rfl Iff.rfl
  exact ⟨reached.rootdir, reached.names, reached.commands, reached.keyed⟩

theorem Tidy.step (tidy : s.Tidy) (taken : step cfg s act = some (t, out)) :
    Agrees cfg s act t out := by
  cases act with
  | construct env =>
      cases taken
      have reached := maybeStartSomePlugins_reached cfg tidy.keyed env
      exact tidy.confined_iff_of_reached (.construct env) reached nofun
  | browse sc env =>
      have agrees := tidy.browse cfg sc env
      rw [Option.some.inj taken] at agrees
      exact agrees
  | search sc env =>
      have agrees := tidy.search cfg sc env
      rw [Option.some.inj taken] at agrees
      exact agrees
  | translate url trackId env =>
      cases taken
      exact tidy.translate url trackId env
  | ended name failed =>
      cases taken
      exact tidy.agrees_of_refused (processEnded_keyed tidy.keyed name failed)
        (processEnded_names name failed) (.inl rfl) rfl nofun trivial

theorem makerootdir_plugins (cfg : CDConfig) (listdir : Option (List String)) :
    (makerootdir cfg {} listdir).1.plugins = [] := by
  unfold makerootdir
  split
  · rfl
  · split
    · rfl
    · rfl

theorem tidy_makerootdir (cfg : CDConfig) (listdir : Option (List String)) :
    (makerootdir cfg {} listdir).1.Tidy := by
  refine ⟨?_, ?_⟩
  · unfold Keyed
    rw [makerootdir_plugins]
    nofun
  · unfold ContentDirectory.names
    rw [makerootdir_plugins]
    nofun

theorem rootId_inj {name other : String} :
    "0$" ++ name ++ "$" = "0$" ++ other ++ "$" ↔ name = other := by
  constructor
  · intro same
    rw [String.ext_iff, String.toList_append, String.toList_append, String.toList_append,
      String.toList_append] at same
    exact String.toList_inj.mp (List.append_cancel_left (List.append_cancel_right same))
  · rintro rfl
    rfl

/-- The available names are those of the entries which the configuration enables. -/
theorem available_makerootdir (cfg : CDConfig) (entries : List String) (name : String) :
    (makerootdir cfg {} (some entries)).1.Available name ↔ name ∈ pluginEntries cfg entries := by
  unfold makerootdir
  dsimp only
  split
  · rename_i none_enabled
    rw [none_enabled]
    constructor
    · rintro ⟨entry, member, container, _⟩
      rw [List.mem_singleton.mp member] at container
      cases container
    · nofun
  · constructor
    · rintro ⟨entry, member, _, id⟩
      obtain ⟨known, there, rfl⟩ := List.mem_map.mp member
      rw [← rootId_inj.mp id]
      exact there
    · intro there
      exact ⟨rootEntry cfg name, List.mem_map.mpr ⟨name, there, rfl⟩, rfl, rfl⟩

/-- Exactly the requests which name an available plugin are confined. -/
theorem confined_iff_named (cfg : CDConfig) (listdir : Option (List String)) (acts : List Act) :
    Machine.Along (Confined cfg) (step cfg) (makerootdir cfg {} listdir).1 acts ↔
      Machine.Along (Named cfg) (step cfg) (makerootdir cfg {} listdir).1 acts := by
  refine Machine.along_iff_of_invariant ?_ _ acts (tidy_makerootdir cfg listdir)
  intro s act t out tidy taken
  exact tidy.step taken

/-- A configuration with one plugin. -/
def uprclOnly : CDConfig where
  g_datadir := "/usr/share/upmpdcli/"
  g_configfilename := "/etc/upmpdcli.conf"
  options := fun nm => if nm = "uprcluser" then some "bugsbunny" else none
  enable_spotify := false
  decode := fun _ => none
  soap := ⟨id, fun _ => ""⟩

/-- The browse of an id with parent directories. -/
def browseParent : Act :=
  .browse
    { ObjectID := some "0$../../tmp/x$", BrowseFlag := some "BrowseDirectChildren",
      Filter := some "*", StartingIndex := some 0, RequestedCount := some 0,
      SortCriteria := some "" }
    { slave := { now := 0, done := 0, running := true, callproc := fun _ _ => none } }

theorem not_confined_browseParent :
    ¬ ∀ (cfg : CDConfig) (listdir : Option (List String)) (acts : List Act),
      Machine.Along (Confined cfg) (step cfg) (makerootdir cfg {} listdir).1 acts := by
  intro law
  have along := law uprclOnly (some ["uprcl"]) [browseParent]
  have confined := ((Machine.along_cons_of_step rfl).mp along).1
  have tidy := tidy_makerootdir uprclOnly (some ["uprcl"])
  have named := ((tidy.step rfl).1.mp confined) "0$../../tmp/x$" rfl (.inr rfl) "../../tmp/x" (by decide)
  rw [available_makerootdir] at named
  exact absurd named (by decide)

end ContentDirectory

end Upmpdcli
