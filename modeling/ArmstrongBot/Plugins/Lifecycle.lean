import ArmstrongBot.Library.JsText
import Mathlib.Data.Finset.Insert
import Mathlib.Data.Finset.Erase
import Mathlib.Logic.Function.Basic

/-! `PluginLifecycleService` and `PluginDependencyResolver`: the status of a plugin, the hooks it
may have, and the checks of its manifest. -/

namespace Plugins

open JsText

inductive PluginStatus
  | installed
  | enabled
  | disabled
  | errored
  | updating
  | removed
  deriving DecidableEq

def allowedTransitions : PluginStatus → List PluginStatus
  | .installed => [.enabled, .removed, .errored]
  | .enabled => [.disabled, .updating, .errored]
  | .disabled => [.enabled, .removed, .errored]
  | .errored => [.disabled, .removed]
  | .updating => [.installed, .errored]
  | .removed => []

def assertTransition (current next : PluginStatus) : Bool :=
  decide (next ∈ allowedTransitions current)

inductive PluginErrorCode
  | manifestInvalid
  | sdkIncompatible
  | dependencyMissing
  | dependencyIncompatible
  | dependencyCycle
  | loadFailed
  | hookFailed
  | hookTimeout
  | invalidTransition
  | notFound
  | alreadyInstalled
  deriving DecidableEq

structure PluginDependency where
  name : JsString
  range : JsString
  required : Option Bool
  deriving DecidableEq

structure PluginManifest where
  name : JsString
  version : JsString
  sdkRange : JsString
  dependencies : List PluginDependency
  deriving DecidableEq

inductive Phase
  | install
  | enable
  | disable
  | update
  | remove
  deriving DecidableEq

/-- A loaded plugin; `optional` are those of its hooks that it may lack and has. -/
structure Plugin where
  manifest : PluginManifest
  optional : List Phase
  deriving DecidableEq

def Plugin.has (plugin : Plugin) : Phase → Bool
  | .enable | .disable => true
  | phase => decide (phase ∈ plugin.optional)

/-- An entry of the registry; a disposer is known by the subscription that it ends. -/
structure LoadedPluginEntry where
  plugin : Plugin
  status : PluginStatus
  enabledGuilds : Finset JsString
  disposers : List Nat

/-- How a hook comes back to `runHook`: one that outlasts the timeout is given up on. -/
inductive HookOutcome
  | resolves
  | rejects
  | timesOut
  deriving DecidableEq

def HookOutcome.error : HookOutcome → Option PluginErrorCode
  | .resolves => none
  | .rejects => some .hookFailed
  | .timesOut => some .hookTimeout

/-- A run of a hook: the events it subscribes to through its context, and how it ends. -/
structure HookRun where
  subscribes : List JsString
  outcome : HookOutcome

def hookError (plugin : Plugin) (phase : Phase) (hook : HookRun) : Option PluginErrorCode :=
  if plugin.has phase then hook.outcome.error else none

/-- The host of the plugins: its own version, and `satisfies` of the `semver` package. -/
structure Host where
  sdkVersion : JsString
  satisfies : JsString → JsString → Bool

def validateSdkRange (host : Host) (manifest : PluginManifest) : Option PluginErrorCode :=
  if host.satisfies host.sdkVersion manifest.sdkRange then none else some .sdkIncompatible

def dependencyError (host : Host) (registry : JsString → Option LoadedPluginEntry)
    (dependency : PluginDependency) : Option PluginErrorCode :=
  if dependency.required = some false then none
  else match registry dependency.name with
    | none => some .dependencyMissing
    | some entry =>
        if host.satisfies entry.plugin.manifest.version dependency.range then none
        else some .dependencyIncompatible

def validateDependencies (host : Host) (registry : JsString → Option LoadedPluginEntry)
    (manifest : PluginManifest) : Option PluginErrorCode :=
  manifest.dependencies.findSome? (dependencyError host registry)

/-! The changes of an entry once a hook has come back. -/

/-- `if (dto.guildId)`: neither a missing guild nor an empty one is a guild. -/
def guildOf (guildId : Option JsString) : Option JsString := guildId.filter fun guild => !guild.isEmpty

def LoadedPluginEntry.enabledFor (entry : LoadedPluginEntry) (guildId : Option JsString) :
    LoadedPluginEntry :=
  { entry with
    enabledGuilds := (guildOf guildId).elim entry.enabledGuilds fun guild =>
      insert guild entry.enabledGuilds
    status := .enabled }

def LoadedPluginEntry.disabledFor (entry : LoadedPluginEntry) (guildId : Option JsString) :
    LoadedPluginEntry :=
  { entry with
    enabledGuilds := (guildOf guildId).elim entry.enabledGuilds entry.enabledGuilds.erase
    status := .disabled }

def LoadedPluginEntry.withStatus (entry : LoadedPluginEntry) (status : PluginStatus) :
    LoadedPluginEntry := { entry with status }

def LoadedPluginEntry.drained (entry : LoadedPluginEntry) : LoadedPluginEntry :=
  { entry with disposers := [] }

section Transitions

variable {current : PluginStatus}

theorem enabled_of (allowed : assertTransition current .enabled = true) :
    current = .installed ∨ current = .disabled := by
  cases current <;> simp_all [assertTransition, allowedTransitions]

theorem disabled_of (allowed : assertTransition current .disabled = true) :
    current = .enabled ∨ current = .errored := by
  cases current <;> simp_all [assertTransition, allowedTransitions]

theorem updating_of (allowed : assertTransition current .updating = true) : current = .enabled := by
  cases current <;> simp_all [assertTransition, allowedTransitions]

theorem removed_of (allowed : assertTransition current .removed = true) :
    current = .installed ∨ current = .disabled ∨ current = .errored := by
  cases current <;> simp_all [assertTransition, allowedTransitions]

end Transitions

/-! A plugin without optional hooks, for the examples. -/

def weather : JsString := js "weather"

def weatherPlugin : Plugin :=
  { manifest :=
      { name := weather, version := js "1.0.0", sdkRange := js ">=1.0.0", dependencies := [] }
    optional := [] }

end Plugins
