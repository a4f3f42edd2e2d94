import ArmstrongBot.Library.StepMachine
import ArmstrongBot.Plugins.Service

/-! When `installPlugin` takes a plugin. It looks for a live row of the file's name, and stores a
row of the manifest's name, which is unique among the removed rows as well. -/

namespace Plugins

open JsText StepMachine

/-- The loader returns this plugin, the host takes it, and no query or hook of the call fails. -/
structure Installable (host : Host) (state : State) (input : Input) (plugin : Plugin) : Prop where
  loads : input.load = .ok plugin
  sdkRange : validateSdkRange host plugin.manifest = none
  dependencies : validateDependencies host state.registry plugin.manifest = none
  hook : hookError plugin .install input.hook = none
  database : ∀ query, input.fails query = false

/-- An installation of a valid plugin is refused exactly when a live row has its name. -/
def InstallsByName (host : Host) (state : State) : Action → Prop
  | (.install source, input) => ∀ plugin, Installable host state input plugin →
      ((installPlugin host state source input).thrown = none ↔
        findByName state plugin.manifest.name = none)
  | _ => True

/-- A live row has the name of the manifest; or no row has it, not even one of a removed plugin,
and no live row has the name of the file. -/
def NameSettles (state : State) (source name : JsString) : Prop :=
  findByName state name ≠ none ∨
    state.records name = none ∧ findByName state (sourceName source) = none

def NamesSettle (host : Host) (state : State) : Action → Prop
  | (.install source, input) => ∀ plugin, Installable host state input plugin →
      NameSettles state source plugin.manifest.name
  | _ => True

section

variable {host : Host} {state : State} {source : JsString} {input : Input} {plugin : Plugin}

theorem vetPlugin_installable (installable : Installable host state input plugin) :
    vetPlugin host state source input =
      if (findByName state (sourceName source)).isSome then .error (.plugin .alreadyInstalled)
      else .ok plugin := by
  simp [vetPlugin, installable.database, installable.loads, installable.sdkRange,
    installable.dependencies]

/-- Both notions of identity have to let a valid plugin pass. -/
theorem installed_iff (installable : Installable host state input plugin) :
    (installPlugin host state source input).thrown = none ↔
      findByName state (sourceName source) = none ∧ state.records plugin.manifest.name = none := by
  unfold installPlugin
  rw [vetPlugin_installable installable]
  by_cases sameFile : (findByName state (sourceName source)).isSome
  · have found : findByName state (sourceName source) ≠ none := Option.isSome_iff_ne_none.mp sameFile
    simp [sameFile, found]
  · have free : findByName state (sourceName source) = none := by simpa using sameFile
    by_cases sameName : (state.records plugin.manifest.name).isSome
    · have taken : state.records plugin.manifest.name ≠ none := Option.isSome_iff_ne_none.mp sameName
      simp [free, sameName, taken]
    · have fresh : state.records plugin.manifest.name = none := by simpa using sameName
      simp [free, fresh, installable.database, installable.hook]

theorem findByName_of_fresh {name : JsString} (fresh : state.records name = none) :
    findByName state name = none := by
  simp [findByName, fresh]

theorem installsByName_iff (action : Action) :
    InstallsByName host state action ↔ NamesSettle host state action := by
  obtain ⟨operation, input⟩ := action
  cases operation with
  | install source =>
      refine forall_congr' fun plugin => forall_congr' fun installable => ?_
      rw [installed_iff installable]
      constructor
      · intro byName
        by_cases live : findByName state plugin.manifest.name = none
        · have passes := byName.mpr live
          exact .inr ⟨passes.2, passes.1⟩
        · exact .inl live
      · rintro (live | ⟨fresh, free⟩)
        · refine iff_of_false ?_ live
          intro passes
          exact live (findByName_of_fresh passes.2)
        · exact iff_of_true ⟨free, fresh⟩ (findByName_of_fresh fresh)
  | enable | disable | update | remove | disableForGuild | disableAll | apiOn => exact Iff.rfl

end

/-- In a history of any operations, installations go by the name of the manifest exactly when at
each of them the other two notions of identity agree with it. -/
theorem installs_by_name_iff (host : Host) (bus : Events.Registries) (actions : List Action) :
    Guarded (step host) (InstallsByName host) (.start bus) actions ↔
      Guarded (step host) (NamesSettle host) (.start bus) actions := by
  have keeps (state : State) (action : Action) (next : State) (_ : True)
      (_ : step host state action = some next) : True := trivial
  exact guarded_congr (step host) keeps (fun _ action _ _ _ => installsByName_iff action) trivial
    actions

def weatherFile : JsString := js "plugins/weather.js"

def stormsPlugin : Plugin :=
  { weatherPlugin with manifest := { weatherPlugin.manifest with name := js "storms" } }

/-- A plugin that was removed cannot be installed again, and a plugin is refused where its file has
the name of another one. -/
theorem removed_name_refused :
    ¬ Guarded (step openHost) (InstallsByName openHost) (.start .empty)
        [(.install weatherFile, smooth), (.remove weather, smooth),
          (.install weatherFile, smooth)] ∧
      ¬ Guarded (step openHost) (InstallsByName openHost) (.start .empty)
        [(.install weatherFile, smooth),
          (.install weatherFile, { smooth with load := .ok stormsPlugin })] := by
  constructor
  · intro guarded
    have again := (((guarded _ rfl).2 _ rfl).2 _ rfl).1 weatherPlugin
      ⟨rfl, rfl, rfl, rfl, fun _ => rfl⟩
    have noneLive := again.mpr (by decide +kernel)
    exact absurd noneLive (by decide +kernel)
  · intro guarded
    have other := ((guarded _ rfl).2 _ rfl).1 stormsPlugin ⟨rfl, rfl, rfl, rfl, fun _ => rfl⟩
    have noneLive := other.mpr (by decide +kernel)
    exact absurd noneLive (by decide +kernel)

end Plugins
