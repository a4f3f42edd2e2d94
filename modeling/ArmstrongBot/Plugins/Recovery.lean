import ArmstrongBot.Plugins.Agreement

/-! Where an operation that fails leaves its plugin. -/

namespace Plugins

open JsText Function StepMachine

/-- The plugin may be updated, disabled or removed; one that is not loaded has no row to be stuck
with. -/
def HasWayForward (standing : Standing) : Prop :=
  match standing.loaded with
  | some loaded => ∃ target ∈ [PluginStatus.updating, .disabled, .removed],
      assertTransition loaded.status target = true
  | none => ∀ record, standing.record = some record → record.deleted = true

structure Recovers (before after : Standing) : Prop where
  ends : after = before ∨ after.loaded.map Loaded.status = some .errored
  forward : HasWayForward after

/-- The plugin that an operation is about. -/
def subject : Operation → Input → Option JsString
  | .install _, input => input.load.toOption.map fun plugin => plugin.manifest.name
  | .enable name _, _ | .disable name _, _ | .update name, _ | .remove name, _
  | .disableForGuild name _, _ | .disableAll name, _ | .apiOn name _ _, _ => some name

/-- The operation is refused at its checks, or it is the hook of an `install`, `enable`, `disable`
or `update` that fails, with no failure before it. -/
def CaughtInTime (host : Host) (state : State) : Operation → Input → Prop
  | .install source, input => ∀ plugin, vetPlugin host state source input = .ok plugin →
      (input.fails .create || (state.records plugin.manifest.name).isSome) = false →
        input.fails .recordVersionHistory = false
  | .enable name _, input => ∀ entry, admission state name .enabled input = .ok entry →
      hookError entry.plugin .enable input.hook ≠ none
  | .disable name _, input => ∀ entry, admission state name .disabled input = .ok entry →
      hookError entry.plugin .disable input.hook ≠ none
  | .update name, input => ∀ entry, admission state name .updating input = .ok entry →
      input.fails .updateStatus = false ∧
        ∃ newPlugin, loadUpdate host input = .ok newPlugin ∧
          hookError newPlugin .update input.hook ≠ none
  | .remove name, input => ∀ entry, admission state name .removed input ≠ .ok entry
  | .disableForGuild _ _, _ | .disableAll _, _ | .apiOn _ _ _, _ => True

section

variable {host : Host} {state : State} {name : JsString} {input : Input} {outcome : Outcome}

theorem vetted_load {source : JsString} {plugin : Plugin}
    (vetted : vetPlugin host state source input = .ok plugin) : input.load = .ok plugin := by
  unfold vetPlugin at vetted
  split at vetted
  · cases vetted
  split at vetted
  · cases vetted
  split at vetted
  · cases vetted
  rename_i loaded
  split at vetted
  · cases vetted
  · cases vetted
    exact loaded

theorem forward_errored {standing : Standing}
    (errored : standing.loaded.map Loaded.status = some .errored) : HasWayForward standing := by
  obtain ⟨loaded, found, status⟩ := Option.map_eq_some_iff.mp errored
  unfold HasWayForward
  rw [found]
  exact ⟨.removed, by simp, by rw [status]; decide⟩

/-- Every status that an admitted operation starts from has a way forward. -/
theorem forward_admitted {target : PluginStatus} {entry : LoadedPluginEntry}
    (admits : admission state name target input = .ok entry) (leads : target ≠ .errored)
    (settled : target ≠ .installed) : HasWayForward (standing state name) := by
  obtain ⟨found, allowed⟩ := admitted admits
  unfold HasWayForward
  rw [standing_loaded found]
  cases status : entry.status <;> cases target <;>
    simp_all [assertTransition, allowedTransitions, LoadedPluginEntry.loaded]

theorem recovers_unchanged {before : Standing} : Recovers before before ↔ HasWayForward before :=
  ⟨fun recovers => recovers.forward, fun forward => ⟨.inl rfl, forward⟩⟩

theorem recovers_errored {before after : Standing}
    (errored : after.loaded.map Loaded.status = some .errored) : Recovers before after :=
  ⟨.inr errored, forward_errored errored⟩

/-- A plugin that ends in another status than it had, and not in an error, has not recovered. -/
theorem not_recovers {before after : Standing}
    (moved : after.loaded.map Loaded.status ≠ before.loaded.map Loaded.status)
    (notErrored : after.loaded.map Loaded.status ≠ some .errored) : ¬ Recovers before after := by
  intro recovers
  rcases recovers.ends with same | errored
  · exact moved (by rw [same])
  · exact notErrored errored

theorem status_markErrored {before : Standing} (isLoaded : before.loaded.isSome = true) :
    (before.markErrored input).loaded.map Loaded.status = some .errored := by
  obtain ⟨loaded, found⟩ := Option.isSome_iff_exists.mp isLoaded
  unfold Standing.markErrored
  split <;> simp [Standing.load, Standing.store, found, Loaded.withStatus]

/-- The two switches: everything behind the hook comes too late to be taken back. -/
theorem Switched.recovers_iff {target : PluginStatus} {phase : Phase} {settle : State → State}
    {enabled : Bool} {guildId : Option JsString} {view : Loaded → Loaded}
    (settles : ∀ state, standing (settle state) =
      update (standing state) name ((standing state name).load view))
    (viewed : ∀ loaded, (view loaded).status = target)
    (moves : ∀ status, assertTransition status target = true → target ≠ status)
    (switch : target = .enabled ∨ target = .disabled)
    (course : Switched state name guildId input target phase settle enabled outcome)
    (throws : outcome.thrown ≠ none) :
    Recovers (standing state name) (standing outcome.state name) ↔
      HasWayForward (standing state name) ∧
        ∀ entry, admission state name target input = .ok entry →
          hookError entry.plugin phase input.hook ≠ none := by
  have forward : ∀ {entry : LoadedPluginEntry}, admission state name target input = .ok entry →
      HasWayForward (standing state name) := by
    intro entry admits
    rcases switch with rfl | rfl <;> exact forward_admitted admits (by decide) (by decide)
  have late : ∀ {entry : LoadedPluginEntry} {next : State},
      admission state name target input = .ok entry →
      (standing next name).loaded = some (view entry.loaded) →
      ¬ Recovers (standing state name) (standing next name) := by
    intro entry next admits ends
    obtain ⟨found, allowed⟩ := admitted admits
    refine not_recovers ?_ ?_
    · rw [ends, standing_loaded found]
      simpa [viewed] using moves entry.loaded.status allowed
    · rw [ends]
      rcases switch with rfl | rfl <;> simp [viewed]
  cases course with
  | refused refuses =>
      rw [recovers_unchanged]
      refine ⟨fun held => ⟨held, ?_⟩, fun both => both.1⟩
      intro entry admits
      rw [refuses] at admits
      cases admits
  | failed admits fails =>
      refine iff_of_true ?_ ⟨forward admits, ?_⟩
      · rw [standing_markErrored, update_self, standing_runHook]
        exact recovers_errored (status_markErrored (by
          rw [standing_loaded (admitted admits).1, Option.isSome_some]))
      · intro other others
        rw [admits] at others
        cases others
        rw [fails]
        simp
  | unstored admits passes =>
      refine iff_of_false ?_ fun both => both.2 _ admits passes
      exact late admits (by simp [settles, Standing.load, standing_loaded (admitted admits).1])
  | unlisted admits passes =>
      refine iff_of_false ?_ fun both => both.2 _ admits passes
      exact late admits (by
        simp [settles, Standing.load, Standing.store, standing_loaded (admitted admits).1])
  | switched => exact absurd rfl throws

theorem Updated.recovers_iff (course : Updated host state name input outcome)
    (throws : outcome.thrown ≠ none) :
    Recovers (standing state name) (standing outcome.state name) ↔
      HasWayForward (standing state name) ∧ CaughtInTime host state (.update name) input := by
  have stuck : ∀ {entry : LoadedPluginEntry} {next : State} (status : PluginStatus),
      admission state name .updating input = .ok entry →
      (standing next name).loaded.map Loaded.status = some status →
      status ≠ .enabled → status ≠ .errored →
      ¬ Recovers (standing state name) (standing next name) := by
    intro entry next status admits ends notEnabled notErrored
    obtain ⟨found, allowed⟩ := admitted admits
    refine not_recovers ?_ ?_
    · rw [ends, standing_loaded found]
      simpa [LoadedPluginEntry.loaded, updating_of allowed] using notEnabled
    · rw [ends]
      simpa using notErrored
  cases course with
  | refused refuses =>
      rw [recovers_unchanged]
      refine ⟨fun held => ⟨held, ?_⟩, fun both => both.1⟩
      intro entry admits
      rw [refuses] at admits
      cases admits
  | unstored admits unstored =>
      have found := standing_loaded (admitted admits).1
      refine iff_of_false ?_ ?_
      · exact stuck .updating admits
          (by simp [Standing.load, found, Loaded.withStatus]) (by decide) (by decide)
      · intro both
        have stored := (both.2 _ admits).1
        rw [unstored] at stored
        cases stored
  | unloaded admits stored unloaded =>
      have found := standing_loaded (admitted admits).1
      refine iff_of_false ?_ ?_
      · exact stuck .updating admits
          (by simp [Standing.load, Standing.store, found, Loaded.withStatus]) (by decide) (by decide)
      · intro both
        obtain ⟨newPlugin, loads, _⟩ := (both.2 _ admits).2
        rw [unloaded] at loads
        cases loads
  | failed admits stored loads fails =>
      have found := standing_loaded (admitted admits).1
      refine iff_of_true ?_ ⟨forward_admitted admits (by decide) (by decide), ?_⟩
      · rw [standing_markErrored, update_self, standing_runHook]
        exact recovers_errored (status_markErrored (by
          simp [Standing.store, Standing.load, found]))
      · intro other _
        exact ⟨stored, _, loads, by rw [fails]; simp⟩
  | unversioned admits stored loads passes =>
      have found := standing_loaded (admitted admits).1
      refine iff_of_false ?_ ?_
      · exact stuck .installed admits
          (by simp [Standing.load, Standing.store, found, Loaded.withStatus]) (by decide) (by decide)
      · intro both
        obtain ⟨newPlugin, others, fails⟩ := (both.2 _ admits).2
        rw [loads] at others
        cases others
        exact fails passes
  | updated => exact absurd rfl throws

theorem Removed.recovers_iff (course : Removed state name input outcome)
    (throws : outcome.thrown ≠ none) :
    Recovers (standing state name) (standing outcome.state name) ↔
      HasWayForward (standing state name) ∧ CaughtInTime host state (.remove name) input := by
  cases course with
  | refused refuses =>
      rw [recovers_unchanged]
      refine ⟨fun held => ⟨held, ?_⟩, fun both => both.1⟩
      intro entry admits
      rw [refuses] at admits
      cases admits
  | undeleted admits =>
      refine iff_of_false ?_ fun both => both.2 _ admits
      have found := standing_loaded (admitted admits).1
      exact not_recovers (by simp [found]) (by simp)
  | removed => exact absurd rfl throws

theorem Installed.recovers_iff {source : JsString}
    (course : Installed host state input source outcome) (backed : Backed (standing state name))
    (loads : subject (.install source) input = some name) (throws : outcome.thrown ≠ none) :
    Recovers (standing state name) (standing outcome.state name) ↔
      HasWayForward (standing state name) ∧ CaughtInTime host state (.install source) input := by
  have isSubject : ∀ {plugin : Plugin}, vetPlugin host state source input = .ok plugin →
      plugin.manifest.name = name := by
    intro plugin vetted
    have loaded := vetted_load vetted
    simpa [subject, loaded, Except.toOption] using loads
  have absent : ∀ {plugin : Plugin},
      (input.fails .create || (state.records plugin.manifest.name).isSome) = false →
      plugin.manifest.name = name →
      (standing state name).record = none ∧ (standing state name).loaded = none := by
    rintro plugin created rfl
    have noRecord : (standing state plugin.manifest.name).record = none := by
      simpa [standing] using (Bool.or_eq_false_iff.mp created).2
    exact ⟨noRecord, backed noRecord⟩
  cases course with
  | refused refuses =>
      rw [recovers_unchanged]
      refine ⟨fun held => ⟨held, ?_⟩, fun both => both.1⟩
      intro plugin vetted
      rw [refuses] at vetted
      cases vetted
  | uncreated vetted uncreated =>
      rw [recovers_unchanged]
      refine ⟨fun held => ⟨held, ?_⟩, fun both => both.1⟩
      intro other others created
      rw [vetted] at others
      cases others
      rw [uncreated] at created
      cases created
  | unrecorded vetted created unrecorded =>
      obtain rfl := isSubject vetted
      obtain ⟨noRecord, notLoaded⟩ := absent created rfl
      refine iff_of_false ?_ ?_
      · rw [standing_create, update_self]
        intro recovers
        have stuck := recovers.forward
        simp only [HasWayForward, notLoaded] at stuck
        simpa using stuck _ rfl
      · intro both
        have recorded := both.2 _ vetted created
        rw [unrecorded] at recorded
        cases recorded
  | failed vetted created recorded fails =>
      obtain rfl := isSubject vetted
      obtain ⟨noRecord, notLoaded⟩ := absent created rfl
      refine iff_of_true ?_ ⟨?_, fun _ _ _ => recorded⟩
      · rw [standing_markErrored, update_self, standing_runHook]
        exact recovers_errored (status_markErrored (by simp))
      · simp [HasWayForward, notLoaded, noRecord]
  | installed => exact absurd rfl throws

end

/-- An operation that throws leaves its plugin as it was or in an error, from where there is a way
forward, exactly when it was caught in time and there was a way forward before. -/
theorem failure_recovers_iff (host : Host) (state : State) (operation : Operation) (input : Input)
    (name : JsString) (backed : Backed (standing state name))
    (concerns : subject operation input = some name)
    (throws : (perform host state operation input).thrown ≠ none) :
    Recovers (standing state name) (standing (perform host state operation input).state name) ↔
      HasWayForward (standing state name) ∧ CaughtInTime host state operation input := by
  cases operation with
  | install source => exact (installPlugin_course ..).recovers_iff backed concerns throws
  | enable other guildId =>
      obtain rfl := Option.some.inj concerns
      exact (enablePlugin_course ..).recovers_iff
        (fun state => standing_settleEnabled state other guildId) (fun _ => rfl)
        (by rintro (_ | _ | _ | _ | _ | _) <;> decide) (.inl rfl) throws
  | disable other guildId =>
      obtain rfl := Option.some.inj concerns
      exact (disablePlugin_course ..).recovers_iff
        (fun state => standing_settleDisabled state other guildId) (fun _ => rfl)
        (by rintro (_ | _ | _ | _ | _ | _) <;> decide) (.inr rfl) throws
  | update other =>
      obtain rfl := Option.some.inj concerns
      exact (updatePlugin_course ..).recovers_iff throws
  | remove other =>
      obtain rfl := Option.some.inj concerns
      exact (removePlugin_course ..).recovers_iff throws
  | disableForGuild => exact absurd rfl throws
  | disableAll => exact absurd rfl throws
  | apiOn other context event =>
      simp only [perform] at throws
      split at throws <;> exact absurd rfl throws

/-- An `enable` whose hook rejects leaves the plugin in an error that can be disabled. -/
theorem rejected_enable_recovers :
    let installedState := (perform openHost (.start .empty) (.install (js "plugins/weather.js"))
      smooth).state
    let rejected : Input := { smooth with hook := { subscribes := [], outcome := .rejects } }
    Recovers (standing installedState weather)
      (standing (perform openHost installedState (.enable weather none) rejected).state weather) :=
  (failure_recovers_iff openHost _ (.enable weather none) _ weather
    (backed_perform (backed_start .empty) _ _ weather) rfl (by decide +kernel)).mpr
    ⟨⟨.removed, by decide, by decide +kernel⟩,
      fun entry _ => by simp [hookError, Plugin.has, HookOutcome.error]⟩

def enabledState : State :=
  (perform openHost
    (perform openHost (.start .empty) (.install (js "plugins/weather.js")) smooth).state
    (.enable weather (some (js "100"))) smooth).state

/-- An update whose source does not load leaves the plugin `updating`. -/
theorem unloaded_update_stuck :
    run (step openHost) (.start .empty) installed = some enabledState ∧
      ¬ Recovers (standing enabledState weather)
        (standing (perform openHost enabledState (.update weather)
          { smooth with load := .error .loadFailed }).state weather) := by
  refine ⟨rfl, not_recovers ?_ ?_⟩
  · decide +kernel
  · decide +kernel

end Plugins
