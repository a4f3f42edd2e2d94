import ArmstrongBot.Plugins.Service

/-! Where one plugin stands, without its subscriptions, and how each part of an operation moves
it. The courses of the operations follow, one constructor for each way to end. -/

namespace Plugins

open JsText Function

structure Loaded where
  status : PluginStatus
  enabledGuilds : Finset JsString
  deriving DecidableEq

namespace Loaded

def withStatus (loaded : Loaded) (status : PluginStatus) : Loaded := { loaded with status }

def enabledFor (loaded : Loaded) (guildId : Option JsString) : Loaded :=
  { status := .enabled
    enabledGuilds := (guildOf guildId).elim loaded.enabledGuilds fun guild =>
      insert guild loaded.enabledGuilds }

def disabledFor (loaded : Loaded) (guildId : Option JsString) : Loaded :=
  { status := .disabled
    enabledGuilds := (guildOf guildId).elim loaded.enabledGuilds loaded.enabledGuilds.erase }

def without (loaded : Loaded) (guildId : JsString) : Loaded :=
  { loaded with enabledGuilds := loaded.enabledGuilds.erase guildId }

end Loaded

def LoadedPluginEntry.loaded (entry : LoadedPluginEntry) : Loaded :=
  { status := entry.status, enabledGuilds := entry.enabledGuilds }

structure Standing where
  loaded : Option Loaded
  record : Option PluginRecord
  enablements : Option JsString → Option Bool

def standing (state : State) (name : JsString) : Standing :=
  { loaded := (state.registry name).map LoadedPluginEntry.loaded
    record := state.records name
    enablements := state.enablements name }

namespace Standing

def load (standing : Standing) (change : Loaded → Loaded) : Standing :=
  { standing with loaded := standing.loaded.map change }

def store (standing : Standing) (change : PluginRecord → PluginRecord) : Standing :=
  { standing with record := standing.record.map change }

def enablement (standing : Standing) (guildId : Option JsString) (enabled : Bool) : Standing :=
  { standing with enablements := update standing.enablements guildId (some enabled) }

end Standing

section Primitives

variable (state : State) (name : JsString)

theorem standing_modifyEntry {change : LoadedPluginEntry → LoadedPluginEntry}
    (view : Loaded → Loaded) (commutes : ∀ entry, (change entry).loaded = view entry.loaded) :
    standing (modifyEntry state name change) =
      update (standing state) name ((standing state name).load view) := by
  funext other
  by_cases same : other = name
  · subst same
    have composed : LoadedPluginEntry.loaded ∘ change = view ∘ LoadedPluginEntry.loaded :=
      funext commutes
    simp [standing, modifyEntry, Standing.load, composed]
  · simp [standing, modifyEntry, same]

theorem standing_modifyRecord (change : PluginRecord → PluginRecord) :
    standing (modifyRecord state name change) =
      update (standing state) name ((standing state name).store change) := by
  funext other
  by_cases same : other = name
  · subst same
    simp [standing, modifyRecord, Standing.store]
  · simp [standing, modifyRecord, same]

theorem standing_setEnablement (guildId : Option JsString) (enabled : Bool) :
    standing (setEnablement state name guildId enabled) =
      update (standing state) name ((standing state name).enablement guildId enabled) := by
  funext other
  by_cases same : other = name
  · subst same
    simp [standing, setEnablement, Standing.enablement]
  · simp [standing, setEnablement, same]

theorem standing_unload :
    standing (unload state name) =
      update (standing state) name { standing state name with loaded := none } := by
  funext other
  by_cases same : other = name
  · subst same
    simp [standing, unload]
  · simp [standing, unload, same]

theorem standing_create (version : JsString) :
    standing (create state name version) =
      update (standing state) name
        { standing state name with
          record := some { version, status := .installed, deleted := false } } := by
  funext other
  by_cases same : other = name
  · subst same
    simp [standing, create]
  · simp [standing, create, same]

theorem standing_setEntry (entry : LoadedPluginEntry) :
    standing (setEntry state name entry) =
      update (standing state) name { standing state name with loaded := some entry.loaded } := by
  funext other
  by_cases same : other = name
  · subst same
    simp [standing, setEntry]
  · simp [standing, setEntry, same]

theorem load_id (standing : Standing) : standing.load id = standing := by
  simp [Standing.load]

/-- A change of the disposers alone moves no plugin. -/
theorem standing_modifyEntry_quiet {change : LoadedPluginEntry → LoadedPluginEntry}
    (quiet : ∀ entry, (change entry).loaded = entry.loaded) :
    standing (modifyEntry state name change) = standing state := by
  rw [standing_modifyEntry state name id quiet, load_id, update_eq_self]

@[simp] theorem standing_apiOn (context : PluginContext) (event : JsString) :
    standing (apiOn state name context event) = standing state :=
  standing_modifyEntry_quiet state name fun _ => rfl

@[simp] theorem standing_drainDisposers :
    standing (drainDisposers state name) = standing state :=
  standing_modifyEntry_quiet state name fun _ => rfl

@[simp] theorem standing_runHook (plugin : Plugin) (phase : Phase) (context : PluginContext)
    (hook : HookRun) : standing (runHook state name plugin phase context hook) = standing state := by
  unfold runHook
  split
  · induction hook.subscribes generalizing state with
    | nil => rfl
    | cons event rest ih =>
        rw [List.foldl_cons, ih, standing_apiOn]
  · rfl

/-! The changes that the operations make. -/

@[simp] theorem standing_withStatus (status : PluginStatus) :
    standing (modifyEntry state name fun entry => entry.withStatus status) =
      update (standing state) name ((standing state name).load fun loaded =>
        loaded.withStatus status) :=
  standing_modifyEntry state name _ fun _ => rfl

@[simp] theorem standing_replaced (plugin : Plugin) :
    standing (modifyEntry state name fun entry => { entry with plugin, status := .installed }) =
      update (standing state) name ((standing state name).load fun loaded =>
        loaded.withStatus .installed) :=
  standing_modifyEntry state name _ fun _ => rfl

@[simp] theorem standing_without (guildId : JsString) :
    standing (modifyEntry state name fun entry =>
        { entry with enabledGuilds := entry.enabledGuilds.erase guildId }) =
      update (standing state) name ((standing state name).load fun loaded =>
        loaded.without guildId) :=
  standing_modifyEntry state name _ fun _ => rfl

@[simp] theorem standing_settleEnabled (guildId : Option JsString) :
    standing (settleEnabled name guildId state) =
      update (standing state) name ((standing state name).load fun loaded =>
        loaded.enabledFor guildId) :=
  standing_modifyEntry state name _ fun _ => rfl

@[simp] theorem standing_settleDisabled (guildId : Option JsString) :
    standing (settleDisabled name guildId state) =
      update (standing state) name ((standing state name).load fun loaded =>
        loaded.disabledFor guildId) := by
  rw [settleDisabled, standing_modifyEntry _ name (fun loaded => loaded.disabledFor guildId)
    fun _ => rfl, standing_drainDisposers]

@[simp] theorem standing_updateStatus (status : PluginStatus) :
    standing (updateStatus state name status) =
      update (standing state) name ((standing state name).store fun record =>
        { record with status }) :=
  standing_modifyRecord state name _

@[simp] theorem standing_updateVersion (version : JsString) :
    standing (updateVersion state name version) =
      update (standing state) name ((standing state name).store fun record =>
        { record with version, status := .installed }) :=
  standing_modifyRecord state name _

@[simp] theorem standing_softDelete :
    standing (softDelete state name) =
      update (standing state) name ((standing state name).store fun record =>
        { record with deleted := true, status := .removed }) :=
  standing_modifyRecord state name _

attribute [simp] standing_setEnablement standing_unload standing_create standing_setEntry

def Standing.markErrored (standing : Standing) (input : Input) : Standing :=
  let errored := standing.load fun loaded => loaded.withStatus .errored
  if input.fails .markErrored then errored
  else errored.store fun record => { record with status := .errored }

@[simp] theorem standing_markErrored (code : PluginErrorCode) (input : Input) :
    standing (markErrored state name code input).state =
      update (standing state) name ((standing state name).markErrored input) := by
  unfold markErrored Standing.markErrored
  split <;> simp

theorem markErrored_throws (code : PluginErrorCode) (input : Input) :
    (markErrored state name code input).thrown ≠ none := by
  unfold markErrored
  split <;> simp

end Primitives

theorem standing_loaded {state : State} {name : JsString} {entry : LoadedPluginEntry}
    (found : state.registry name = some entry) :
    (standing state name).loaded = some entry.loaded := by
  simp [standing, found]

/-! The ways to end. -/

theorem admitted {state : State} {name : JsString} {target : PluginStatus} {input : Input}
    {entry : LoadedPluginEntry} (admits : admission state name target input = .ok entry) :
    state.registry name = some entry ∧ assertTransition entry.status target = true := by
  unfold admission at admits
  split at admits
  · cases admits
  split at admits
  · cases admits
  split at admits
  · cases admits
  rename_i found
  split at admits
  · rename_i allowed
    cases admits
    exact ⟨found, allowed⟩
  · cases admits

section Courses

variable (host : Host) (state : State) (name : JsString) (guildId : Option JsString) (input : Input)

inductive Switched (target : PluginStatus) (phase : Phase) (settle : State → State)
    (enabled : Bool) : Outcome → Prop
  | refused {failure : Failure} : admission state name target input = .error failure →
      Switched target phase settle enabled { state, thrown := some failure }
  | failed {entry : LoadedPluginEntry} {code : PluginErrorCode} :
      admission state name target input = .ok entry →
      hookError entry.plugin phase input.hook = some code →
      Switched target phase settle enabled (markErrored
        (runHook state name entry.plugin phase (buildContext entry guildId) input.hook)
        name code input)
  | unstored {entry : LoadedPluginEntry} : admission state name target input = .ok entry →
      hookError entry.plugin phase input.hook = none → input.fails .updateStatus = true →
      Switched target phase settle enabled
        { state := settle
            (runHook state name entry.plugin phase (buildContext entry guildId) input.hook)
          thrown := some .database }
  | unlisted {entry : LoadedPluginEntry} : admission state name target input = .ok entry →
      hookError entry.plugin phase input.hook = none → input.fails .updateStatus = false →
      input.fails .setEnablement = true →
      Switched target phase settle enabled
        { state := updateStatus (settle
            (runHook state name entry.plugin phase (buildContext entry guildId) input.hook))
            name target
          thrown := some .database }
  | switched {entry : LoadedPluginEntry} : admission state name target input = .ok entry →
      hookError entry.plugin phase input.hook = none → input.fails .updateStatus = false →
      input.fails .setEnablement = false →
      Switched target phase settle enabled
        { state := setEnablement (updateStatus (settle
            (runHook state name entry.plugin phase (buildContext entry guildId) input.hook))
            name target) name guildId enabled
          thrown := none }

theorem switchPlugin_course (target : PluginStatus) (phase : Phase) (settle : State → State)
    (enabled : Bool) :
    Switched state name guildId input target phase settle enabled
      (switchPlugin target phase settle enabled state name guildId input) := by
  unfold switchPlugin
  split
  · rename_i refuses
    exact .refused refuses
  rename_i entry admits
  dsimp only
  split
  · rename_i fails
    exact .failed admits fails
  rename_i passes
  split
  · rename_i unstored
    exact .unstored admits passes unstored
  rename_i stored
  rw [Bool.not_eq_true] at stored
  split
  · rename_i unlisted
    exact .unlisted admits passes stored unlisted
  · rename_i listed
    exact .switched admits passes stored (Bool.eq_false_iff.mpr listed)

inductive Updated : Outcome → Prop
  | refused {failure : Failure} : admission state name .updating input = .error failure →
      Updated { state, thrown := some failure }
  | unstored {entry : LoadedPluginEntry} : admission state name .updating input = .ok entry →
      input.fails .updateStatus = true →
      Updated
        { state := modifyEntry state name fun entry => entry.withStatus .updating
          thrown := some .database }
  | unloaded {entry : LoadedPluginEntry} {code : PluginErrorCode} :
      admission state name .updating input = .ok entry → input.fails .updateStatus = false →
      loadUpdate host input = .error code →
      Updated
        { state := updateStatus
            (modifyEntry state name fun entry => entry.withStatus .updating) name .updating
          thrown := some (.plugin code) }
  | failed {entry : LoadedPluginEntry} {newPlugin : Plugin} {code : PluginErrorCode} :
      admission state name .updating input = .ok entry → input.fails .updateStatus = false →
      loadUpdate host input = .ok newPlugin →
      hookError newPlugin .update input.hook = some code →
      Updated (markErrored
        (runHook
          (updateStatus (modifyEntry state name fun entry => entry.withStatus .updating)
            name .updating)
          name newPlugin .update (buildContext entry none) input.hook)
        name code input)
  | unversioned {entry : LoadedPluginEntry} {newPlugin : Plugin} :
      admission state name .updating input = .ok entry → input.fails .updateStatus = false →
      loadUpdate host input = .ok newPlugin → hookError newPlugin .update input.hook = none →
      input.fails .updateVersion = true →
      Updated
        { state := modifyEntry
            (runHook
              (updateStatus (modifyEntry state name fun entry => entry.withStatus .updating)
                name .updating)
              name newPlugin .update (buildContext entry none) input.hook)
            name fun entry => { entry with plugin := newPlugin, status := .installed }
          thrown := some .database }
  | updated {entry : LoadedPluginEntry} {newPlugin : Plugin} :
      admission state name .updating input = .ok entry → input.fails .updateStatus = false →
      loadUpdate host input = .ok newPlugin → hookError newPlugin .update input.hook = none →
      input.fails .updateVersion = false →
      Updated
        { state := updateVersion (modifyEntry
            (runHook
              (updateStatus (modifyEntry state name fun entry => entry.withStatus .updating)
                name .updating)
              name newPlugin .update (buildContext entry none) input.hook)
            name fun entry => { entry with plugin := newPlugin, status := .installed })
            name newPlugin.manifest.version
          thrown := none }

theorem updatePlugin_course : Updated host state name input (updatePlugin host state name input) := by
  unfold updatePlugin
  split
  · rename_i refuses
    exact .refused refuses
  rename_i entry admits
  dsimp only
  split
  · rename_i unstored
    exact .unstored admits unstored
  rename_i stored
  rw [Bool.not_eq_true] at stored
  split
  · rename_i unloaded
    exact .unloaded admits stored unloaded
  rename_i newPlugin loads
  split
  · rename_i fails
    exact .failed admits stored loads fails
  rename_i passes
  split
  · rename_i unversioned
    exact .unversioned admits stored loads passes unversioned
  · rename_i versioned
    exact .updated admits stored loads passes (Bool.eq_false_iff.mpr versioned)

inductive Removed : Outcome → Prop
  | refused {failure : Failure} : admission state name .removed input = .error failure →
      Removed { state, thrown := some failure }
  | undeleted {entry : LoadedPluginEntry} : admission state name .removed input = .ok entry →
      input.fails .softDelete = true →
      Removed
        { state := unload (drainDisposers
            (runHook state name entry.plugin .remove (buildContext entry none) input.hook) name) name
          thrown := some .database }
  | removed {entry : LoadedPluginEntry} : admission state name .removed input = .ok entry →
      input.fails .softDelete = false →
      Removed
        { state := softDelete (unload (drainDisposers
            (runHook state name entry.plugin .remove (buildContext entry none) input.hook) name)
            name) name
          thrown := none }

theorem removePlugin_course : Removed state name input (removePlugin state name input) := by
  unfold removePlugin
  split
  · rename_i refuses
    exact .refused refuses
  rename_i entry admits
  dsimp only
  split
  · rename_i undeleted
    exact .undeleted admits undeleted
  · rename_i deleted
    exact .removed admits (Bool.eq_false_iff.mpr deleted)

inductive Installed (source : JsString) : Outcome → Prop
  | refused {failure : Failure} : vetPlugin host state source input = .error failure →
      Installed source { state, thrown := some failure }
  | uncreated {plugin : Plugin} : vetPlugin host state source input = .ok plugin →
      (input.fails .create || (state.records plugin.manifest.name).isSome) = true →
      Installed source { state, thrown := some .database }
  | unrecorded {plugin : Plugin} : vetPlugin host state source input = .ok plugin →
      (input.fails .create || (state.records plugin.manifest.name).isSome) = false →
      input.fails .recordVersionHistory = true →
      Installed source
        { state := create state plugin.manifest.name plugin.manifest.version
          thrown := some .database }
  | failed {plugin : Plugin} {code : PluginErrorCode} :
      vetPlugin host state source input = .ok plugin →
      (input.fails .create || (state.records plugin.manifest.name).isSome) = false →
      input.fails .recordVersionHistory = false →
      hookError plugin .install input.hook = some code →
      Installed source (markErrored
        (runHook
          (setEntry (create state plugin.manifest.name plugin.manifest.version)
            plugin.manifest.name (installedEntry plugin))
          plugin.manifest.name plugin .install (buildContext (installedEntry plugin) none)
          input.hook)
        plugin.manifest.name code input)
  | installed {plugin : Plugin} : vetPlugin host state source input = .ok plugin →
      (input.fails .create || (state.records plugin.manifest.name).isSome) = false →
      input.fails .recordVersionHistory = false →
      hookError plugin .install input.hook = none →
      Installed source
        { state := runHook
            (setEntry (create state plugin.manifest.name plugin.manifest.version)
              plugin.manifest.name (installedEntry plugin))
            plugin.manifest.name plugin .install (buildContext (installedEntry plugin) none)
            input.hook
          thrown := none }

theorem installPlugin_course (source : JsString) :
    Installed host state input source (installPlugin host state source input) := by
  unfold installPlugin
  split
  · rename_i refuses
    exact .refused refuses
  rename_i plugin vetted
  dsimp only
  split
  · rename_i uncreated
    exact .uncreated vetted uncreated
  rename_i created
  rw [Bool.not_eq_true] at created
  split
  · rename_i unrecorded
    exact .unrecorded vetted created unrecorded
  rename_i recorded
  rw [Bool.not_eq_true] at recorded
  split
  · rename_i fails
    exact .failed vetted created recorded fails
  · rename_i passes
    exact .installed vetted created recorded passes

end Courses

/-! What every operation does: it moves one plugin, and what is in the registry has a row. -/

/-- Only a plugin with a row is in the registry. -/
def Backed (standing : Standing) : Prop := standing.record = none → standing.loaded = none

section Backed

variable {before : Standing}

theorem backed_load (backed : Backed before) (change : Loaded → Loaded) :
    Backed (before.load change) := by
  intro noRecord
  simp [Standing.load, backed noRecord]

theorem backed_store (backed : Backed before) (change : PluginRecord → PluginRecord) :
    Backed (before.store change) := by
  intro noRecord
  exact backed (Option.map_eq_none_iff.mp noRecord)

theorem backed_markErrored (backed : Backed before) (input : Input) :
    Backed (before.markErrored input) := by
  unfold Standing.markErrored
  split
  · exact backed_load backed _
  · exact backed_store (backed_load backed _) _

end Backed

/-- Nothing but the plugin of this name moves, and it stays backed. -/
def Moves (name : JsString) (before after : State) : Prop :=
  ∃ moved, standing after = update (standing before) name moved ∧
    (Backed (standing before name) → Backed moved)

section Moves

variable {state next : State} {name : JsString}

theorem moves_of_eq (name : JsString) (same : standing next = standing state) :
    Moves name state next :=
  ⟨standing state name, by rw [same, update_eq_self], id⟩

theorem Moves.trans {last : State} (first : Moves name state next) (second : Moves name next last) :
    Moves name state last := by
  obtain ⟨moved, eq, backed⟩ := first
  obtain ⟨later, laterEq, laterBacked⟩ := second
  rw [eq, update_self] at laterBacked
  exact ⟨later, by rw [laterEq, eq, update_idem], fun held => laterBacked (backed held)⟩

theorem Moves.other {other : JsString} (moves : Moves name state next) (different : other ≠ name) :
    standing next other = standing state other := by
  obtain ⟨moved, eq, _⟩ := moves
  rw [eq, update_of_ne different]

theorem Moves.backed (moves : Moves name state next) (backed : ∀ name, Backed (standing state name)) :
    ∀ name, Backed (standing next name) := by
  intro other
  by_cases same : other = name
  · subst same
    obtain ⟨moved, eq, keeps⟩ := moves
    rw [eq, update_self]
    exact keeps (backed other)
  · rw [moves.other same]
    exact backed other

theorem Moves.forall_iff (moves : Moves name state next) {predicate : Standing → Prop}
    (held : ∀ name, predicate (standing state name)) :
    (∀ name, predicate (standing next name)) ↔ predicate (standing next name) := by
  refine ⟨fun all => all name, ?_⟩
  intro here other
  by_cases same : other = name
  · exact same ▸ here
  · rw [moves.other same]
    exact held other

theorem moves_load {change : Loaded → Loaded}
    (eq : standing next = update (standing state) name ((standing state name).load change)) :
    Moves name state next := ⟨_, eq, fun backed => backed_load backed change⟩

theorem moves_store {change : PluginRecord → PluginRecord}
    (eq : standing next = update (standing state) name ((standing state name).store change)) :
    Moves name state next := ⟨_, eq, fun backed => backed_store backed change⟩

theorem moves_runHook (state : State) (name : JsString) (plugin : Plugin) (phase : Phase)
    (context : PluginContext) (hook : HookRun) :
    Moves name state (runHook state name plugin phase context hook) :=
  moves_of_eq name (standing_runHook state name plugin phase context hook)

theorem moves_markErrored (state : State) (name : JsString) (code : PluginErrorCode)
    (input : Input) : Moves name state (markErrored state name code input).state :=
  ⟨_, standing_markErrored state name code input, fun backed => backed_markErrored backed input⟩

theorem moves_setEnablement (state : State) (name : JsString) (guildId : Option JsString)
    (enabled : Bool) : Moves name state (setEnablement state name guildId enabled) :=
  ⟨_, standing_setEnablement state name guildId enabled, fun backed noRecord => backed noRecord⟩

theorem moves_unload (state : State) (name : JsString) : Moves name state (unload state name) :=
  ⟨_, standing_unload state name, fun _ _ => rfl⟩

theorem moves_create (state : State) (name version : JsString) :
    Moves name state (create state name version) :=
  ⟨_, standing_create state name version, fun _ noRecord => nomatch noRecord⟩

theorem moves_setEntry {state : State} {name : JsString} (entry : LoadedPluginEntry)
    (recorded : (standing state name).record ≠ none) :
    Moves name state (setEntry state name entry) :=
  ⟨_, standing_setEntry state name entry, fun _ noRecord => absurd noRecord recorded⟩

theorem Switched.moves {target : PluginStatus} {phase : Phase} {settle : State → State}
    {enabled : Bool} {guildId : Option JsString} {input : Input} {outcome : Outcome}
    {view : Loaded → Loaded}
    (settles : ∀ state, standing (settle state) =
      update (standing state) name ((standing state name).load view))
    (course : Switched state name guildId input target phase settle enabled outcome) :
    Moves name state outcome.state := by
  cases course with
  | refused => exact moves_of_eq name rfl
  | failed => exact (moves_runHook ..).trans (moves_markErrored ..)
  | unstored => exact (moves_runHook ..).trans (moves_load (settles _))
  | unlisted =>
      exact ((moves_runHook ..).trans (moves_load (settles _))).trans
        (moves_store (standing_updateStatus ..))
  | switched =>
      exact (((moves_runHook ..).trans (moves_load (settles _))).trans
        (moves_store (standing_updateStatus ..))).trans (moves_setEnablement ..)

theorem Updated.moves {host : Host} {input : Input} {outcome : Outcome}
    (course : Updated host state name input outcome) : Moves name state outcome.state := by
  have begins : Moves name state (modifyEntry state name fun entry => entry.withStatus .updating) :=
    moves_load (standing_withStatus ..)
  have stores := begins.trans (moves_store (standing_updateStatus _ name .updating))
  cases course with
  | refused => exact moves_of_eq name rfl
  | unstored => exact begins
  | unloaded => exact stores
  | failed => exact (stores.trans (moves_runHook ..)).trans (moves_markErrored ..)
  | unversioned =>
      exact (stores.trans (moves_runHook ..)).trans (moves_load (standing_replaced ..))
  | updated =>
      exact ((stores.trans (moves_runHook ..)).trans (moves_load (standing_replaced ..))).trans
        (moves_store (standing_updateVersion ..))

theorem Removed.moves {input : Input} {outcome : Outcome}
    (course : Removed state name input outcome) : Moves name state outcome.state := by
  cases course with
  | refused => exact moves_of_eq name rfl
  | undeleted =>
      exact ((moves_runHook ..).trans (moves_of_eq name (standing_drainDisposers ..))).trans
        (moves_unload ..)
  | removed =>
      exact (((moves_runHook ..).trans (moves_of_eq name (standing_drainDisposers ..))).trans
        (moves_unload ..)).trans (moves_store (standing_softDelete ..))

theorem moves_load_entry (state : State) (plugin : Plugin) :
    Moves plugin.manifest.name state
      (setEntry (create state plugin.manifest.name plugin.manifest.version) plugin.manifest.name
        (installedEntry plugin)) :=
  (moves_create ..).trans (moves_setEntry _ (by simp))

/-- A refused installation moves no plugin, any other one the plugin that was loaded. -/
theorem Installed.moves {host : Host} {input : Input} {source : JsString} {outcome : Outcome}
    (course : Installed host state input source outcome) :
    ∃ name, Moves name state outcome.state := by
  cases course with
  | refused => exact ⟨[], moves_of_eq _ rfl⟩
  | uncreated => exact ⟨[], moves_of_eq _ rfl⟩
  | unrecorded => exact ⟨_, moves_create ..⟩
  | failed =>
      exact ⟨_, ((moves_load_entry ..).trans (moves_runHook ..)).trans (moves_markErrored ..)⟩
  | installed => exact ⟨_, (moves_load_entry ..).trans (moves_runHook ..)⟩

theorem moves_disableForGuild (state : State) (name guildId : JsString) (input : Input) :
    Moves name state (disableForGuild state name guildId input) := by
  unfold disableForGuild
  split
  · exact moves_of_eq name rfl
  split
  · dsimp only
    split
    · exact moves_runHook ..
    · exact ((moves_runHook ..).trans (moves_of_eq name (standing_drainDisposers ..))).trans
        (moves_load (standing_without ..))
  · exact moves_of_eq name rfl

theorem moves_disableAll (state : State) (name : JsString) (input : Input) :
    Moves name state (disableAll state name input) := by
  unfold disableAll
  split
  · exact moves_of_eq name rfl
  split
  · dsimp only
    split
    · exact (moves_runHook ..).trans (moves_load (standing_withStatus ..))
    · exact ((moves_runHook ..).trans (moves_of_eq name (standing_drainDisposers ..))).trans
        (moves_load (standing_withStatus ..))
  · exact moves_of_eq name rfl

end Moves

theorem enablePlugin_course (state : State) (name : JsString) (guildId : Option JsString)
    (input : Input) :
    Switched state name guildId input .enabled .enable (settleEnabled name guildId) true
      (enablePlugin state name guildId input) :=
  switchPlugin_course state name guildId input ..

theorem disablePlugin_course (state : State) (name : JsString) (guildId : Option JsString)
    (input : Input) :
    Switched state name guildId input .disabled .disable (settleDisabled name guildId) false
      (disablePlugin state name guildId input) :=
  switchPlugin_course state name guildId input ..

theorem enablePlugin_moves (state : State) (name : JsString) (guildId : Option JsString)
    (input : Input) : Moves name state (enablePlugin state name guildId input).state :=
  (enablePlugin_course ..).moves fun state => standing_settleEnabled state name guildId

theorem disablePlugin_moves (state : State) (name : JsString) (guildId : Option JsString)
    (input : Input) : Moves name state (disablePlugin state name guildId input).state :=
  (disablePlugin_course ..).moves fun state => standing_settleDisabled state name guildId

theorem perform_moves (host : Host) (state : State) (operation : Operation) (input : Input) :
    ∃ name, Moves name state (perform host state operation input).state := by
  cases operation with
  | install source => exact (installPlugin_course ..).moves
  | enable name guildId => exact ⟨name, enablePlugin_moves ..⟩
  | disable name guildId => exact ⟨name, disablePlugin_moves ..⟩
  | update name => exact ⟨name, (updatePlugin_course ..).moves⟩
  | remove name => exact ⟨name, (removePlugin_course ..).moves⟩
  | disableForGuild name guildId => exact ⟨name, moves_disableForGuild ..⟩
  | disableAll name => exact ⟨name, moves_disableAll ..⟩
  | apiOn name context event =>
      refine ⟨name, moves_of_eq name ?_⟩
      simp only [perform]
      split
      · exact standing_apiOn ..
      · rfl

theorem backed_perform {host : Host} {state : State} (backed : ∀ name, Backed (standing state name))
    (operation : Operation) (input : Input) :
    ∀ name, Backed (standing (perform host state operation input).state name) := by
  obtain ⟨name, moves⟩ := perform_moves host state operation input
  exact moves.backed backed

end Plugins
