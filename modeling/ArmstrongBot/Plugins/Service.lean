import ArmstrongBot.Events.Bus
import ArmstrongBot.Plugins.Lifecycle

/-! `PluginApplicationService`: the registry in memory, the stored rows, and the operations, each
of which runs to its end before the next one starts. The event that reports a completed operation
changes none of this and is left out. -/

namespace Plugins

open JsText Function
open Events (Registries)

structure PluginRecord where
  version : JsString
  status : PluginStatus
  deleted : Bool
  deriving DecidableEq

/-- A subscription made through a context of the plugin that is registered under this name. -/
structure Subscription where
  number : Nat
  plugin : JsString
  guildId : Option JsString
  deriving DecidableEq

/-- The name of a row in `plugins` is unique and stands for its id. A row in
`plugin_enablements` is known by its plugin and its guild. -/
structure State where
  registry : JsString → Option LoadedPluginEntry
  records : JsString → Option PluginRecord
  enablements : JsString → Option JsString → Option Bool
  bus : Registries
  made : List Subscription

def State.start (bus : Registries) : State :=
  { registry := fun _ => none, records := fun _ => none, enablements := fun _ _ => none
    bus, made := [] }

inductive Query
  | findByName
  | create
  | recordVersionHistory
  | updateStatus
  | markErrored
  | setEnablement
  | updateVersion
  | softDelete
  deriving DecidableEq

/-- What an operation meets: the plugin that `loader.load` returns or the error it throws, the run
of the hook, and the database queries that fail. -/
structure Input where
  load : Except PluginErrorCode Plugin
  hook : HookRun
  fails : Query → Bool

inductive Failure
  | plugin (code : PluginErrorCode)
  | database
  deriving DecidableEq

structure Outcome where
  state : State
  thrown : Option Failure

/-! The registry and the repository. -/

def setEntry (state : State) (name : JsString) (entry : LoadedPluginEntry) : State :=
  { state with registry := update state.registry name (some entry) }

/-- An entry is shared by reference: a change of it is seen in the registry. -/
def modifyEntry (state : State) (name : JsString) (change : LoadedPluginEntry → LoadedPluginEntry) :
    State :=
  { state with registry := update state.registry name ((state.registry name).map change) }

def unload (state : State) (name : JsString) : State :=
  { state with registry := update state.registry name none }

def findByName (state : State) (name : JsString) : Option PluginRecord :=
  (state.records name).filter fun record => !record.deleted

def create (state : State) (name : JsString) (version : JsString) : State :=
  { state with
    records := update state.records name (some { version, status := .installed, deleted := false }) }

def modifyRecord (state : State) (name : JsString) (change : PluginRecord → PluginRecord) : State :=
  { state with records := update state.records name ((state.records name).map change) }

def updateStatus (state : State) (name : JsString) (status : PluginStatus) : State :=
  modifyRecord state name fun record => { record with status }

def updateVersion (state : State) (name version : JsString) : State :=
  modifyRecord state name fun record => { record with version, status := .installed }

def softDelete (state : State) (name : JsString) : State :=
  modifyRecord state name fun record => { record with deleted := true, status := .removed }

def setEnablement (state : State) (name : JsString) (guildId : Option JsString) (enabled : Bool) :
    State :=
  { state with
    enablements := update state.enablements name
      (update (state.enablements name) guildId (some enabled)) }

/-! The hooks and what they reach through `PluginApi`. -/

structure PluginContext where
  pluginName : JsString
  guildId : Option JsString

def buildContext (entry : LoadedPluginEntry) (guildId : Option JsString) : PluginContext :=
  { pluginName := entry.plugin.manifest.name, guildId }

def handlerId (context : PluginContext) (event : JsString) : JsString :=
  js "plugin." ++ context.pluginName ++ js "." ++ event

/-- `PluginApi.on`, for the plugin registered under `name`. -/
def apiOn (state : State) (name : JsString) (context : PluginContext) (event : JsString) : State :=
  let number := state.bus.subscribed
  let subscribed := Events.subscribe state.bus event
    { handlerId := handlerId context event, guildId := none, durable := false }
  { (modifyEntry state name fun entry => { entry with disposers := entry.disposers ++ [number] }) with
    bus := subscribed
    made := state.made ++ [{ number, plugin := name, guildId := context.guildId }] }

def runHook (state : State) (name : JsString) (plugin : Plugin) (phase : Phase)
    (context : PluginContext) (hook : HookRun) : State :=
  if plugin.has phase then
    hook.subscribes.foldl (fun state event => apiOn state name context event) state
  else state

def drainDisposers (state : State) (name : JsString) : State :=
  let disposers := (state.registry name).elim [] LoadedPluginEntry.disposers
  { (modifyEntry state name LoadedPluginEntry.drained) with
    bus := disposers.foldl Events.unsubscribe state.bus }

/-! The operations. -/

def slash : CodeUnit := unit 0x2F

def dot : CodeUnit := unit 0x2E

/-- `path.basename(source, path.extname(source))` -/
def sourceName (source : JsString) : JsString :=
  let reversed := (source.reverse.dropWhile (· == slash)).takeWhile (· != slash)
  let front := (reversed.dropWhile (· != dot)).drop 1
  if reversed == js ".." || front.isEmpty then reversed.reverse else front.reverse

/-- `requireRecord`, `requireEntry` and `assertTransition`. -/
def admission (state : State) (name : JsString) (target : PluginStatus) (input : Input) :
    Except Failure LoadedPluginEntry :=
  if input.fails .findByName then .error .database
  else if (findByName state name).isNone then .error (.plugin .notFound)
  else match state.registry name with
    | none => .error (.plugin .notFound)
    | some entry =>
        if assertTransition entry.status target then .ok entry
        else .error (.plugin .invalidTransition)

def markErrored (state : State) (name : JsString) (code : PluginErrorCode) (input : Input) :
    Outcome :=
  let errored := modifyEntry state name fun entry => entry.withStatus .errored
  if input.fails .markErrored then { state := errored, thrown := some .database }
  else { state := updateStatus errored name .errored, thrown := some (.plugin code) }

def vetPlugin (host : Host) (state : State) (source : JsString) (input : Input) :
    Except Failure Plugin :=
  if input.fails .findByName then .error .database
  else if (findByName state (sourceName source)).isSome then .error (.plugin .alreadyInstalled)
  else match input.load with
    | .error code => .error (.plugin code)
    | .ok plugin =>
        match (validateSdkRange host plugin.manifest).or
            (validateDependencies host state.registry plugin.manifest) with
        | some code => .error (.plugin code)
        | none => .ok plugin

def installedEntry (plugin : Plugin) : LoadedPluginEntry :=
  { plugin, status := .installed, enabledGuilds := ∅, disposers := [] }

def installPlugin (host : Host) (state : State) (source : JsString) (input : Input) : Outcome :=
  match vetPlugin host state source input with
  | .error failure => { state, thrown := some failure }
  | .ok plugin =>
      let name := plugin.manifest.name
      -- the unique name also refuses that of a plugin that was removed
      if input.fails .create || (state.records name).isSome then
        { state, thrown := some .database }
      else
        let created := create state name plugin.manifest.version
        if input.fails .recordVersionHistory then { state := created, thrown := some .database }
        else
          let entry := installedEntry plugin
          let hooked := runHook (setEntry created name entry) name plugin .install
            (buildContext entry none) input.hook
          match hookError plugin .install input.hook with
          | some code => markErrored hooked name code input
          | none => { state := hooked, thrown := none }

/-- The common course of `enablePlugin` and `disablePlugin`. -/
def switchPlugin (target : PluginStatus) (phase : Phase) (settle : State → State) (enabled : Bool)
    (state : State) (name : JsString) (guildId : Option JsString) (input : Input) : Outcome :=
  match admission state name target input with
  | .error failure => { state, thrown := some failure }
  | .ok entry =>
      let hooked := runHook state name entry.plugin phase (buildContext entry guildId) input.hook
      match hookError entry.plugin phase input.hook with
      | some code => markErrored hooked name code input
      | none =>
          let settled := settle hooked
          if input.fails .updateStatus then { state := settled, thrown := some .database }
          else
            let stored := updateStatus settled name target
            if input.fails .setEnablement then { state := stored, thrown := some .database }
            else { state := setEnablement stored name guildId enabled, thrown := none }

def settleEnabled (name : JsString) (guildId : Option JsString) (state : State) : State :=
  modifyEntry state name fun entry => entry.enabledFor guildId

def settleDisabled (name : JsString) (guildId : Option JsString) (state : State) : State :=
  modifyEntry (drainDisposers state name) name fun entry => entry.disabledFor guildId

def enablePlugin (state : State) (name : JsString) (guildId : Option JsString) (input : Input) :
    Outcome :=
  switchPlugin .enabled .enable (settleEnabled name guildId) true state name guildId input

def disablePlugin (state : State) (name : JsString) (guildId : Option JsString) (input : Input) :
    Outcome :=
  switchPlugin .disabled .disable (settleDisabled name guildId) false state name guildId input

/-- `loader.load` and `validateSdkRange` of an update, which checks no dependencies. -/
def loadUpdate (host : Host) (input : Input) : Except PluginErrorCode Plugin :=
  match input.load with
  | .error code => .error code
  | .ok plugin =>
      match validateSdkRange host plugin.manifest with
      | some code => .error code
      | none => .ok plugin

def updatePlugin (host : Host) (state : State) (name : JsString) (input : Input) : Outcome :=
  match admission state name .updating input with
  | .error failure => { state, thrown := some failure }
  | .ok entry =>
      let updating := modifyEntry state name fun entry => entry.withStatus .updating
      if input.fails .updateStatus then { state := updating, thrown := some .database }
      else
        let stored := updateStatus updating name .updating
        match loadUpdate host input with
        | .error code => { state := stored, thrown := some (.plugin code) }
        | .ok newPlugin =>
            let hooked := runHook stored name newPlugin .update (buildContext entry none) input.hook
            match hookError newPlugin .update input.hook with
            | some code => markErrored hooked name code input
            | none =>
                let replaced := modifyEntry hooked name fun entry =>
                  { entry with plugin := newPlugin, status := .installed }
                if input.fails .updateVersion then { state := replaced, thrown := some .database }
                else
                  { state := updateVersion replaced name newPlugin.manifest.version
                    thrown := none }

def removePlugin (state : State) (name : JsString) (input : Input) : Outcome :=
  match admission state name .removed input with
  | .error failure => { state, thrown := some failure }
  | .ok entry =>
      -- a hook that fails is logged and passed over
      let hooked := runHook state name entry.plugin .remove (buildContext entry none) input.hook
      let unloaded := unload (drainDisposers hooked name) name
      if input.fails .softDelete then { state := unloaded, thrown := some .database }
      else { state := softDelete unloaded name, thrown := none }

/-- The turn of `disableForGuild`, on `guild.removed`, for one entry. -/
def disableForGuild (state : State) (name guildId : JsString) (input : Input) : State :=
  match state.registry name with
  | none => state
  | some entry =>
      if guildId ∈ entry.enabledGuilds then
        let hooked := runHook state name entry.plugin .disable (buildContext entry (some guildId))
          input.hook
        match hookError entry.plugin .disable input.hook with
        | some _ => hooked
        | none => modifyEntry (drainDisposers hooked name) name fun entry =>
            { entry with enabledGuilds := entry.enabledGuilds.erase guildId }
      else state

/-- The turn of `disableAll`, at shutdown, for one entry. -/
def disableAll (state : State) (name : JsString) (input : Input) : State :=
  match state.registry name with
  | none => state
  | some entry =>
      if entry.status = .enabled then
        let hooked := runHook state name entry.plugin .disable (buildContext entry none) input.hook
        match hookError entry.plugin .disable input.hook with
        | some _ => modifyEntry hooked name fun entry => entry.withStatus .errored
        | none => modifyEntry (drainDisposers hooked name) name fun entry =>
            entry.withStatus .disabled
      else state

/-- Besides the operations, a plugin may subscribe at any time through a context it has kept. -/
inductive Operation
  | install (source : JsString)
  | enable (name : JsString) (guildId : Option JsString)
  | disable (name : JsString) (guildId : Option JsString)
  | update (name : JsString)
  | remove (name : JsString)
  | disableForGuild (name guildId : JsString)
  | disableAll (name : JsString)
  | apiOn (name : JsString) (context : PluginContext) (event : JsString)

def perform (host : Host) (state : State) (operation : Operation) (input : Input) : Outcome :=
  match operation with
  | .install source => installPlugin host state source input
  | .enable name guildId => enablePlugin state name guildId input
  | .disable name guildId => disablePlugin state name guildId input
  | .update name => updatePlugin host state name input
  | .remove name => removePlugin state name input
  | .disableForGuild name guildId =>
      { state := disableForGuild state name guildId input, thrown := none }
  | .disableAll name => { state := disableAll state name input, thrown := none }
  | .apiOn name context event =>
      -- a context was handed out only for a plugin that has a row
      if (state.records name).isSome then { state := apiOn state name context event, thrown := none }
      else { state, thrown := none }

abbrev Action := Operation × Input

def step (host : Host) (state : State) (action : Action) : Option State :=
  some (perform host state action.1 action.2).state

/-! A host that takes every version, and an operation in which nothing fails, for the examples. -/

def openHost : Host := { sdkVersion := js "1.0.0", satisfies := fun _ _ => true }

def smooth : Input :=
  { load := .ok weatherPlugin, hook := { subscribes := [], outcome := .resolves }
    fails := fun _ => false }

end Plugins
