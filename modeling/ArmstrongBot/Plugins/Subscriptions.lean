import ArmstrongBot.Library.StepMachine
import ArmstrongBot.Plugins.Standing

/-! The subscriptions that plugins have made: which of them the disposers of an entry end. -/

namespace Plugins

open JsText Function StepMachine

/-- Every subscription has its own number, and the disposers of an entry are those of the live
subscriptions of its plugin. -/
structure Tracked (state : State) : Prop where
  numbered : ∀ sub ∈ state.made, sub.number < state.bus.subscribed
  distinct : ∀ first ∈ state.made, ∀ second ∈ state.made,
    first.number = second.number → first = second
  owned : ∀ name entry, state.registry name = some entry → ∀ number,
    number ∈ entry.disposers ↔
      state.bus.live number ∧ ∃ sub ∈ state.made, sub.number = number ∧ sub.plugin = name
  unmade : ∀ name, state.records name = none → ∀ sub ∈ state.made, sub.plugin ≠ name

section Primitives

variable {state : State} {name : JsString}

theorem tracked_modifyEntry (tracked : Tracked state)
    {change : LoadedPluginEntry → LoadedPluginEntry}
    (quiet : ∀ entry, (change entry).disposers = entry.disposers) :
    Tracked (modifyEntry state name change) := by
  refine ⟨tracked.numbered, tracked.distinct, ?_, tracked.unmade⟩
  intro other entry found
  by_cases same : other = name
  · subst same
    simp only [modifyEntry, update_self] at found
    obtain ⟨before, foundBefore, rfl⟩ := Option.map_eq_some_iff.mp found
    rw [quiet]
    exact tracked.owned other before foundBefore
  · simp only [modifyEntry, update_of_ne same] at found
    exact tracked.owned other entry found

theorem tracked_modifyRecord (tracked : Tracked state) (change : PluginRecord → PluginRecord) :
    Tracked (modifyRecord state name change) := by
  refine ⟨tracked.numbered, tracked.distinct, tracked.owned, ?_⟩
  intro other noRecord
  by_cases same : other = name
  · subst same
    simp only [modifyRecord, update_self, Option.map_eq_none_iff] at noRecord
    exact tracked.unmade other noRecord
  · simp only [modifyRecord, update_of_ne same] at noRecord
    exact tracked.unmade other noRecord

theorem tracked_setEnablement (tracked : Tracked state) (guildId : Option JsString)
    (enabled : Bool) : Tracked (setEnablement state name guildId enabled) :=
  ⟨tracked.numbered, tracked.distinct, tracked.owned, tracked.unmade⟩

theorem tracked_unload (tracked : Tracked state) : Tracked (unload state name) := by
  refine ⟨tracked.numbered, tracked.distinct, ?_, tracked.unmade⟩
  intro other entry found
  by_cases same : other = name
  · simp [unload, same] at found
  · simp only [unload, update_of_ne same] at found
    exact tracked.owned other entry found

theorem tracked_create (tracked : Tracked state) (version : JsString) :
    Tracked (create state name version) := by
  refine ⟨tracked.numbered, tracked.distinct, tracked.owned, ?_⟩
  intro other noRecord
  by_cases same : other = name
  · simp [create, same] at noRecord
  · simp only [create, update_of_ne same] at noRecord
    exact tracked.unmade other noRecord

/-- A plugin that is loaded anew has made no subscription. -/
theorem tracked_setEntry (tracked : Tracked state) (plugin : Plugin)
    (fresh : ∀ sub ∈ state.made, sub.plugin ≠ name) :
    Tracked (setEntry state name (installedEntry plugin)) := by
  refine ⟨tracked.numbered, tracked.distinct, ?_, tracked.unmade⟩
  intro other entry found
  by_cases same : other = name
  · subst same
    simp only [setEntry, update_self, Option.some.injEq] at found
    subst found
    intro number
    refine iff_of_false List.not_mem_nil ?_
    rintro ⟨_, sub, member, _, isPlugin⟩
    exact fresh sub member isPlugin
  · simp only [setEntry, update_of_ne same] at found
    exact tracked.owned other entry found

theorem live_apiOn (state : State) (name : JsString) (context : PluginContext) (event : JsString)
    (number : Nat) : (apiOn state name context event).bus.live number ↔
      state.bus.live number ∨ number = state.bus.subscribed :=
  Events.live_subscribe

theorem mem_made_apiOn {context : PluginContext} {event : JsString} {sub : Subscription} :
    sub ∈ (apiOn state name context event).made ↔
      sub ∈ state.made ∨ sub =
        { number := state.bus.subscribed, plugin := name, guildId := context.guildId } := by
  simp [apiOn]

theorem tracked_apiOn (tracked : Tracked state) (recorded : (state.records name).isSome = true)
    (context : PluginContext) (event : JsString) : Tracked (apiOn state name context event) := by
  have below : ∀ sub ∈ state.made, sub.number ≠ state.bus.subscribed :=
    fun sub member => Nat.ne_of_lt (tracked.numbered sub member)
  refine ⟨?_, ?_, ?_, ?_⟩
  · intro sub member
    have later : (apiOn state name context event).bus.subscribed = state.bus.subscribed + 1 := rfl
    rcases mem_made_apiOn.mp member with earlier | rfl
    · exact later ▸ Nat.lt_succ_of_lt (tracked.numbered sub earlier)
    · exact later ▸ Nat.lt_succ_self _
  · intro first firstMember second secondMember same
    rcases mem_made_apiOn.mp firstMember with earlier | rfl <;>
      rcases mem_made_apiOn.mp secondMember with secondEarlier | rfl
    · exact tracked.distinct first earlier second secondEarlier same
    · exact absurd same (below first earlier)
    · exact absurd same.symm (below second secondEarlier)
    · rfl
  · intro other entry found number
    have others : state.bus.live number → number ≠ state.bus.subscribed :=
      fun live => Nat.ne_of_lt (Events.Registries.live_lt live)
    rw [live_apiOn]
    by_cases same : other = name
    · subst same
      simp only [apiOn, modifyEntry, update_self] at found
      obtain ⟨before, foundBefore, rfl⟩ := Option.map_eq_some_iff.mp found
      rw [List.mem_append, List.mem_singleton, tracked.owned other before foundBefore]
      constructor
      · rintro (⟨live, sub, member, isNumber⟩ | newest)
        · exact ⟨.inl live, sub, mem_made_apiOn.mpr (.inl member), isNumber⟩
        · exact ⟨.inr newest, _, mem_made_apiOn.mpr (.inr rfl), newest.symm, rfl⟩
      · rintro ⟨live | newest, sub, member, isNumber, isPlugin⟩
        · rcases mem_made_apiOn.mp member with earlier | rfl
          · exact .inl ⟨live, sub, earlier, isNumber, isPlugin⟩
          · exact absurd isNumber.symm (others live)
        · exact .inr newest
    · simp only [apiOn, modifyEntry, update_of_ne same] at found
      rw [tracked.owned other entry found]
      constructor
      · rintro ⟨live, sub, member, isNumber⟩
        exact ⟨.inl live, sub, mem_made_apiOn.mpr (.inl member), isNumber⟩
      · rintro ⟨live, sub, member, isNumber, isPlugin⟩
        rcases mem_made_apiOn.mp member with earlier | rfl
        · refine ⟨live.resolve_right ?_, sub, earlier, isNumber, isPlugin⟩
          exact isNumber ▸ below sub earlier
        · exact absurd isPlugin.symm same
  · intro other noRecord sub member
    rcases mem_made_apiOn.mp member with earlier | rfl
    · exact tracked.unmade other noRecord sub earlier
    · rintro rfl
      have isNone : state.records name = none := noRecord
      rw [isNone] at recorded
      cases recorded

theorem tracked_runHook (tracked : Tracked state) (recorded : (state.records name).isSome = true)
    (plugin : Plugin) (phase : Phase) (context : PluginContext) (hook : HookRun) :
    Tracked (runHook state name plugin phase context hook) := by
  unfold runHook
  split
  · induction hook.subscribes generalizing state with
    | nil => exact tracked
    | cons event rest ih => exact ih (tracked_apiOn tracked recorded context event) recorded
  · exact tracked

/-- A hook ends no subscription and brings none back. -/
theorem live_runHook_iff (plugin : Plugin) (phase : Phase) (context : PluginContext)
    (hook : HookRun) {number : Nat} (earlier : number < state.bus.subscribed) :
    (runHook state name plugin phase context hook).bus.live number ↔ state.bus.live number := by
  unfold runHook
  split
  · induction hook.subscribes generalizing state with
    | nil => rfl
    | cons event rest ih =>
        have next := @ih (apiOn state name context event) (Nat.lt_succ_of_lt earlier)
        rw [List.foldl_cons, next, live_apiOn]
        exact or_iff_left (Nat.ne_of_lt earlier)
  · rfl

theorem live_runHook (plugin : Plugin) (phase : Phase) (context : PluginContext) (hook : HookRun)
    {number : Nat} (live : state.bus.live number) :
    (runHook state name plugin phase context hook).bus.live number :=
  (live_runHook_iff plugin phase context hook (Events.Registries.live_lt live)).mpr live

theorem live_drainDisposers {number : Nat} :
    (drainDisposers state name).bus.live number ↔
      state.bus.live number ∧ number ∉ (state.registry name).elim [] LoadedPluginEntry.disposers :=
  Events.live_unsubscribeAll

theorem tracked_drainDisposers (tracked : Tracked state) : Tracked (drainDisposers state name) := by
  refine ⟨?_, tracked.distinct, ?_, tracked.unmade⟩
  · intro sub member
    have same : (drainDisposers state name).bus.subscribed = state.bus.subscribed :=
      Events.subscribed_unsubscribeAll
    exact same ▸ tracked.numbered sub member
  · intro other entry found number
    rw [live_drainDisposers]
    by_cases same : other = name
    · subst same
      simp only [drainDisposers, modifyEntry, update_self] at found
      obtain ⟨before, foundBefore, rfl⟩ := Option.map_eq_some_iff.mp found
      refine iff_of_false List.not_mem_nil ?_
      rintro ⟨⟨live, undrained⟩, made⟩
      rw [foundBefore, Option.elim_some, tracked.owned other before foundBefore] at undrained
      exact undrained ⟨live, made⟩
    · simp only [drainDisposers, modifyEntry, update_of_ne same] at found
      rw [tracked.owned other entry found]
      constructor
      · rintro ⟨live, sub, member, isNumber, isPlugin⟩
        refine ⟨⟨live, ?_⟩, sub, member, isNumber, isPlugin⟩
        intro drained
        cases loaded : state.registry name with
        | none => simp [loaded] at drained
        | some before =>
            rw [loaded, Option.elim_some, tracked.owned name before loaded] at drained
            obtain ⟨_, otherSub, otherMember, otherNumber, otherPlugin⟩ := drained
            have equal := tracked.distinct sub member otherSub otherMember
              (isNumber.trans otherNumber.symm)
            exact same (isPlugin.symm.trans (equal ▸ otherPlugin))
      · rintro ⟨⟨live, _⟩, made⟩
        exact ⟨live, made⟩

/-- After the disposers of a loaded plugin nothing that it has made is left. -/
theorem drained_of_loaded (tracked : Tracked state) {entry : LoadedPluginEntry}
    (found : state.registry name = some entry) {sub : Subscription} (member : sub ∈ state.made)
    (isPlugin : sub.plugin = name) : ¬ (drainDisposers state name).bus.live sub.number := by
  rw [live_drainDisposers, found, Option.elim_some]
  rintro ⟨live, undrained⟩
  exact undrained ((tracked.owned name entry found sub.number).mpr ⟨live, sub, member, rfl, isPlugin⟩)

end Primitives

section Courses

variable {host : Host} {state : State} {name : JsString} {guildId : Option JsString} {input : Input}
  {outcome : Outcome}

theorem admitted_record {target : PluginStatus} {entry : LoadedPluginEntry}
    (admits : admission state name target input = .ok entry) :
    (state.records name).isSome = true := by
  unfold admission at admits
  split at admits
  · cases admits
  split at admits
  · cases admits
  rename_i found
  obtain ⟨record, isRecord⟩ := Option.ne_none_iff_exists'.mp (by simpa using found)
  rw [(Option.filter_eq_some_iff.mp isRecord).1]
  rfl

theorem tracked_markErrored (tracked : Tracked state) (code : PluginErrorCode) :
    Tracked (markErrored state name code input).state := by
  have errored : Tracked (modifyEntry state name fun entry => entry.withStatus .errored) :=
    tracked_modifyEntry tracked fun _ => rfl
  unfold markErrored
  split
  · exact errored
  · exact tracked_modifyRecord errored _

theorem bus_markErrored (code : PluginErrorCode) :
    (markErrored state name code input).state.bus = state.bus := by
  unfold markErrored
  split <;> rfl

theorem Switched.tracked {target : PluginStatus} {phase : Phase} {settle : State → State}
    {enabled : Bool} (settles : ∀ state, Tracked state → Tracked (settle state))
    (course : Switched state name guildId input target phase settle enabled outcome)
    (tracked : Tracked state) : Tracked outcome.state := by
  have hooked : ∀ {entry : LoadedPluginEntry}, admission state name target input = .ok entry →
      Tracked (runHook state name entry.plugin phase (buildContext entry guildId) input.hook) :=
    fun admits => tracked_runHook tracked (admitted_record admits) _ _ _ _
  cases course with
  | refused => exact tracked
  | failed admits => exact tracked_markErrored (hooked admits) _
  | unstored admits => exact settles _ (hooked admits)
  | unlisted admits => exact tracked_modifyRecord (settles _ (hooked admits)) _
  | switched admits =>
      exact tracked_setEnablement (tracked_modifyRecord (settles _ (hooked admits)) _) _ _

theorem Updated.tracked (course : Updated host state name input outcome)
    (tracked : Tracked state) : Tracked outcome.state := by
  have begins : Tracked (modifyEntry state name fun entry => entry.withStatus .updating) :=
    tracked_modifyEntry tracked fun _ => rfl
  have stores : Tracked (updateStatus
      (modifyEntry state name fun entry => entry.withStatus .updating) name .updating) :=
    tracked_modifyRecord begins _
  have hooked : ∀ {entry : LoadedPluginEntry} (newPlugin : Plugin),
      admission state name .updating input = .ok entry →
      Tracked (runHook
        (updateStatus (modifyEntry state name fun entry => entry.withStatus .updating) name .updating)
        name newPlugin .update (buildContext entry none) input.hook) := by
    intro entry newPlugin admits
    refine tracked_runHook stores ?_ _ _ _ _
    simpa [updateStatus, modifyRecord, modifyEntry] using admitted_record admits
  cases course with
  | refused => exact tracked
  | unstored => exact begins
  | unloaded => exact stores
  | failed admits => exact tracked_markErrored (hooked _ admits) _
  | unversioned admits => exact tracked_modifyEntry (hooked _ admits) fun _ => rfl
  | @updated entry newPlugin admits =>
      have replaced : Tracked (modifyEntry (runHook
          (updateStatus (modifyEntry state name fun entry => entry.withStatus .updating)
            name .updating) name newPlugin .update (buildContext entry none) input.hook) name
          fun entry => { entry with plugin := newPlugin, status := .installed }) :=
        tracked_modifyEntry (hooked newPlugin admits) fun _ => rfl
      exact tracked_modifyRecord replaced _

theorem Removed.tracked (course : Removed state name input outcome) (tracked : Tracked state) :
    Tracked outcome.state := by
  have unloaded : ∀ {entry : LoadedPluginEntry}, admission state name .removed input = .ok entry →
      Tracked (unload (drainDisposers
        (runHook state name entry.plugin .remove (buildContext entry none) input.hook) name) name) :=
    fun admits => tracked_unload (tracked_drainDisposers
      (tracked_runHook tracked (admitted_record admits) _ _ _ _))
  cases course with
  | refused => exact tracked
  | undeleted admits => exact unloaded admits
  | removed admits => exact tracked_modifyRecord (unloaded admits) _

theorem Installed.tracked {source : JsString}
    (course : Installed host state input source outcome) (tracked : Tracked state) :
    Tracked outcome.state := by
  have hooked : ∀ {plugin : Plugin},
      (input.fails .create || (state.records plugin.manifest.name).isSome) = false →
      Tracked (runHook (setEntry (create state plugin.manifest.name plugin.manifest.version)
        plugin.manifest.name (installedEntry plugin)) plugin.manifest.name plugin .install
        (buildContext (installedEntry plugin) none) input.hook) := by
    intro plugin created
    have noRecord : state.records plugin.manifest.name = none := by
      simpa using (Bool.or_eq_false_iff.mp created).2
    refine tracked_runHook (tracked_setEntry (tracked_create tracked _) plugin ?_) ?_ _ _ _ _
    · exact tracked.unmade _ noRecord
    · simp [setEntry, create]
  cases course with
  | refused => exact tracked
  | uncreated => exact tracked
  | unrecorded => exact tracked_create tracked _
  | failed vetted created => exact tracked_markErrored (hooked created) _
  | installed vetted created => exact hooked created

theorem tracked_settleEnabled (name : JsString) (guildId : Option JsString) (state : State)
    (tracked : Tracked state) : Tracked (settleEnabled name guildId state) :=
  tracked_modifyEntry tracked fun _ => rfl

theorem tracked_settleDisabled (name : JsString) (guildId : Option JsString) (state : State)
    (tracked : Tracked state) : Tracked (settleDisabled name guildId state) :=
  tracked_modifyEntry (tracked_drainDisposers tracked) fun _ => rfl

/-- Both loops over the registry: the hook, then perhaps the disposers, then the entry. -/
theorem tracked_loop {entry : LoadedPluginEntry} (tracked : Tracked state)
    (backed : ∀ name, Backed (standing state name)) (found : state.registry name = some entry)
    (context : PluginContext) (hook : HookRun) :
    Tracked (runHook state name entry.plugin .disable context hook) := by
  refine tracked_runHook tracked ?_ _ _ _ _
  have recorded : (standing state name).record ≠ none := by
    intro noRecord
    have notLoaded := backed name noRecord
    rw [standing, found] at notLoaded
    cases notLoaded
  exact Option.isSome_iff_ne_none.mpr recorded

theorem tracked_perform (host : Host) (tracked : Tracked state)
    (backed : ∀ name, Backed (standing state name)) (operation : Operation) (input : Input) :
    Tracked (perform host state operation input).state := by
  cases operation with
  | install source => exact (installPlugin_course ..).tracked tracked
  | enable name guildId =>
      exact (enablePlugin_course ..).tracked (tracked_settleEnabled name guildId) tracked
  | disable name guildId =>
      exact (disablePlugin_course ..).tracked (tracked_settleDisabled name guildId) tracked
  | update name => exact (updatePlugin_course ..).tracked tracked
  | remove name => exact (removePlugin_course ..).tracked tracked
  | disableForGuild name guildId =>
      simp only [perform, disableForGuild]
      split
      · exact tracked
      rename_i entry found
      have hooked := tracked_loop tracked backed found (buildContext entry (some guildId)) input.hook
      split
      · split
        · exact hooked
        · exact tracked_modifyEntry (tracked_drainDisposers hooked) fun _ => rfl
      · exact tracked
  | disableAll name =>
      simp only [perform, disableAll]
      split
      · exact tracked
      rename_i entry found
      have hooked := tracked_loop tracked backed found (buildContext entry none) input.hook
      split
      · split
        · exact tracked_modifyEntry hooked fun _ => rfl
        · exact tracked_modifyEntry (tracked_drainDisposers hooked) fun _ => rfl
      · exact tracked
  | apiOn name context event =>
      simp only [perform]
      split
      · rename_i recorded
        exact tracked_apiOn tracked recorded context event
      · exact tracked

end Courses

/-! What an operation may do to the subscriptions of its plugin. -/

/-- What the plugin subscribed to for the other guilds is still there. -/
def KeepsOthers (before after : State) (name : JsString) (guildId : Option JsString) : Prop :=
  ∀ sub ∈ before.made, sub.plugin = name → ∀ guild other, guildId = some guild →
    sub.guildId = some other → other ≠ guild →
    before.bus.live sub.number → after.bus.live sub.number

/-- What the plugin subscribed to for this guild is gone. -/
def Releases (after : State) (name : JsString) (guildId : Option JsString) : Prop :=
  ∀ sub ∈ after.made, sub.plugin = name → sub.guildId = guildId → ¬ after.bus.live sub.number

/-- The turn of `disableForGuild` gets past its hook. -/
def LeavesGuild (state : State) (name guildId : JsString) (input : Input) : Prop :=
  ∃ entry, state.registry name = some entry ∧ guildId ∈ entry.enabledGuilds ∧
    hookError entry.plugin .disable input.hook = none

def Tidy (host : Host) (state : State) (action : Action) : Prop :=
  let outcome := perform host state action.1 action.2
  match action.1 with
  | .disable name guildId => KeepsOthers state outcome.state name guildId ∧
      (outcome.thrown = none → Releases outcome.state name guildId)
  | .disableForGuild name guildId => KeepsOthers state outcome.state name (some guildId) ∧
      (LeavesGuild state name guildId action.2 → Releases outcome.state name (some guildId))
  | .update name => outcome.thrown = none → ∀ sub ∈ state.made, sub.plugin = name →
      ¬ outcome.state.bus.live sub.number
  | .remove name => outcome.thrown = none → ∀ sub ∈ outcome.state.made, sub.plugin = name →
      ¬ outcome.state.bus.live sub.number
  | _ => True

/-- The plugin has a live subscription for no guild but this one. -/
def OnlyFor (state : State) (name : JsString) (guildId : Option JsString) : Prop :=
  ∀ sub ∈ state.made, sub.plugin = name → state.bus.live sub.number →
    ∀ guild other, guildId = some guild → sub.guildId = some other → other = guild

def Unsubscribed (state : State) (name : JsString) : Prop :=
  ∀ sub ∈ state.made, sub.plugin = name → ¬ state.bus.live sub.number

/-- A disabling that gets past its hook finds subscriptions of no other guild, and an update that
gets through finds none at all. -/
def Separate (host : Host) (state : State) : Action → Prop
  | (.disable name guildId, input) => ∀ entry, admission state name .disabled input = .ok entry →
      hookError entry.plugin .disable input.hook = none → OnlyFor state name guildId
  | (.disableForGuild name guildId, input) => LeavesGuild state name guildId input →
      OnlyFor state name (some guildId)
  | (.update name, input) => ∀ entry newPlugin, admission state name .updating input = .ok entry →
      input.fails .updateStatus = false → loadUpdate host input = .ok newPlugin →
      hookError newPlugin .update input.hook = none → input.fails .updateVersion = false →
      Unsubscribed state name
  | _ => True

section Tidy

variable {host : Host} {state : State} {name : JsString} {guildId : Option JsString} {input : Input}
  {outcome : Outcome}

theorem made_runHook {plugin : Plugin} {phase : Phase} {context : PluginContext} {hook : HookRun}
    {sub : Subscription} (member : sub ∈ state.made) :
    sub ∈ (runHook state name plugin phase context hook).made := by
  unfold runHook
  split
  · induction hook.subscribes generalizing state with
    | nil => exact member
    | cons event rest ih => exact ih (mem_made_apiOn.mpr (.inl member))
  · exact member

theorem registry_runHook {entry : LoadedPluginEntry} (found : state.registry name = some entry)
    (plugin : Plugin) (phase : Phase) (context : PluginContext) (hook : HookRun) :
    ∃ hooked, (runHook state name plugin phase context hook).registry name = some hooked := by
  have same := congrArg Standing.loaded
    (congrFun (standing_runHook state name plugin phase context hook) name)
  rw [standing_loaded found] at same
  obtain ⟨hooked, isHooked, _⟩ := Option.map_eq_some_iff.mp same
  exact ⟨hooked, isHooked⟩

theorem keepsOthers_of_live {after : State}
    (keeps : ∀ number, state.bus.live number → after.bus.live number) :
    KeepsOthers state after name guildId :=
  fun _ _ _ _ _ _ _ _ live => keeps _ live

/-- After the hook and the disposers nothing of the plugin is left, so that the other guilds have
lost nothing only if they had nothing. -/
theorem keepsOthers_drained_iff (guildId : Option JsString) {hooked : State}
    (tracked : Tracked hooked)
    (made : ∀ sub ∈ state.made, sub ∈ hooked.made) {entry : LoadedPluginEntry}
    (found : hooked.registry name = some entry) :
    KeepsOthers state (drainDisposers hooked name) name guildId ↔ OnlyFor state name guildId := by
  constructor
  · intro keeps sub member isPlugin live guild other isGuild isOther
    by_contra different
    exact drained_of_loaded tracked found (made sub member) isPlugin
      (keeps sub member isPlugin guild other isGuild isOther different live)
  · intro only sub member isPlugin guild other isGuild isOther different live
    exact absurd (only sub member isPlugin live guild other isGuild isOther) different

theorem releases_drained (guildId : Option JsString) {hooked : State}
    (tracked : Tracked hooked) {entry : LoadedPluginEntry}
    (found : hooked.registry name = some entry) :
    Releases (drainDisposers hooked name) name guildId :=
  fun _ member isPlugin _ => drained_of_loaded tracked found member isPlugin

theorem disable_tidy_iff
    (course : Switched state name guildId input .disabled .disable (settleDisabled name guildId)
      false outcome) (tracked : Tracked state) :
    (KeepsOthers state outcome.state name guildId ∧
      (outcome.thrown = none → Releases outcome.state name guildId)) ↔
      Separate host state (.disable name guildId, input) := by
  have drained : ∀ {entry : LoadedPluginEntry} {after : State} {thrown : Option Failure},
      admission state name .disabled input = .ok entry →
      hookError entry.plugin .disable input.hook = none →
      after.bus = (drainDisposers (runHook state name entry.plugin .disable
        (buildContext entry guildId) input.hook) name).bus →
      after.made = (runHook state name entry.plugin .disable
        (buildContext entry guildId) input.hook).made →
      ((KeepsOthers state after name guildId ∧ (thrown = none → Releases after name guildId)) ↔
        Separate host state (.disable name guildId, input)) := by
    intro entry after thrown admits passes sameBus sameMade
    have hooked := tracked_runHook tracked (admitted_record admits) entry.plugin .disable
      (buildContext entry guildId) input.hook
    obtain ⟨loaded, found⟩ := registry_runHook (admitted admits).1 entry.plugin .disable
      (buildContext entry guildId) input.hook
    have keeps := keepsOthers_drained_iff guildId hooked (fun sub member => made_runHook member) found
    have releases := releases_drained guildId hooked found
    have here : Separate host state (.disable name guildId, input) ↔ OnlyFor state name guildId := by
      simp [Separate, admits, passes]
    rw [here, ← keeps, KeepsOthers, Releases, sameBus, sameMade]
    exact ⟨fun both => both.1, fun keepsOthers => ⟨keepsOthers, fun _ => releases⟩⟩
  cases course with
  | refused refuses =>
      refine iff_of_true ⟨keepsOthers_of_live fun _ live => live, nofun⟩ ?_
      intro entry admits
      rw [refuses] at admits
      cases admits
  | failed admits fails =>
      refine iff_of_true
        ⟨keepsOthers_of_live ?_, fun unthrown => absurd unthrown (markErrored_throws _ _ _ _)⟩ ?_
      · intro number live
        rw [bus_markErrored]
        exact live_runHook _ _ _ _ live
      · intro other others passes
        rw [admits] at others
        cases others
        rw [fails] at passes
        cases passes
  | unstored admits passes => exact drained admits passes rfl rfl
  | unlisted admits passes => exact drained admits passes rfl rfl
  | switched admits passes => exact drained admits passes rfl rfl

theorem disableForGuild_tidy_iff {guild : JsString} (tracked : Tracked state)
    (backed : ∀ name, Backed (standing state name)) :
    (KeepsOthers state (disableForGuild state name guild input) name (some guild) ∧
      (LeavesGuild state name guild input →
        Releases (disableForGuild state name guild input) name (some guild))) ↔
      Separate host state (.disableForGuild name guild, input) := by
  have stays : ∀ {after : State}, (∀ number, state.bus.live number → after.bus.live number) →
      ¬ LeavesGuild state name guild input →
      ((KeepsOthers state after name (some guild) ∧
        (LeavesGuild state name guild input → Releases after name (some guild))) ↔
        Separate host state (.disableForGuild name guild, input)) :=
    fun keeps notLeaves => iff_of_true
      ⟨keepsOthers_of_live keeps, fun leaves => absurd leaves notLeaves⟩
      fun leaves => absurd leaves notLeaves
  unfold disableForGuild
  split
  · rename_i absent
    refine stays (fun _ live => live) ?_
    rintro ⟨entry, found, _⟩
    rw [absent] at found
    cases found
  rename_i entry found
  split
  · rename_i member
    dsimp only
    split
    · rename_i fails
      refine stays (fun number live => live_runHook _ _ _ _ live) ?_
      rintro ⟨other, otherFound, _, passes⟩
      rw [found] at otherFound
      cases otherFound
      rw [fails] at passes
      cases passes
    · rename_i passes
      have leaves : LeavesGuild state name guild input := ⟨entry, found, member, passes⟩
      have hooked := tracked_loop tracked backed found (buildContext entry (some guild)) input.hook
      obtain ⟨loaded, isLoaded⟩ := registry_runHook found entry.plugin .disable
        (buildContext entry (some guild)) input.hook
      have keeps := keepsOthers_drained_iff (some guild) hooked
        (fun sub member => made_runHook member) isLoaded
      have releases := releases_drained (some guild) hooked isLoaded
      simp only [Separate, leaves, true_implies]
      rw [← keeps]
      exact ⟨fun both => both.1, fun keepsOthers => ⟨keepsOthers, releases⟩⟩
  · rename_i notMember
    refine stays (fun _ live => live) ?_
    rintro ⟨other, otherFound, member, _⟩
    rw [found] at otherFound
    cases otherFound
    exact notMember member

/-- An update ends no subscription, so that there must have been none. -/
theorem update_tidy_iff (course : Updated host state name input outcome)
    (tracked : Tracked state) :
    (outcome.thrown = none → ∀ sub ∈ state.made, sub.plugin = name →
      ¬ outcome.state.bus.live sub.number) ↔ Separate host state (.update name, input) := by
  cases course with
  | refused refuses =>
      refine iff_of_true nofun ?_
      intro entry _ admits
      rw [refuses] at admits
      cases admits
  | unstored admits unstored =>
      refine iff_of_true nofun ?_
      intro entry _ _ stored
      rw [unstored] at stored
      cases stored
  | unloaded admits stored unloaded =>
      refine iff_of_true nofun ?_
      intro entry _ _ _ loads
      rw [unloaded] at loads
      cases loads
  | failed admits stored loads fails =>
      refine iff_of_true (fun unthrown => absurd unthrown (markErrored_throws _ _ _ _)) ?_
      intro entry other _ _ otherLoads passes
      rw [loads] at otherLoads
      cases otherLoads
      rw [fails] at passes
      cases passes
  | unversioned admits stored loads passes unversioned =>
      refine iff_of_true nofun ?_
      intro entry _ _ _ _ _ versioned
      rw [unversioned] at versioned
      cases versioned
  | @updated entry newPlugin admits stored loads passes versioned =>
      constructor
      · intro tidy _ _ _ _ _ _ _ sub member isPlugin live
        exact tidy rfl sub member isPlugin (live_runHook _ _ _ _ live)
      · intro separate _ sub member isPlugin live
        have gone := separate entry newPlugin admits stored loads passes versioned sub member isPlugin
        have same : (runHook
            (updateStatus (modifyEntry state name fun entry => entry.withStatus .updating)
              name .updating) name newPlugin .update (buildContext entry none) input.hook).bus.live
              sub.number ↔ state.bus.live sub.number :=
          live_runHook_iff _ _ _ _ (tracked.numbered sub member)
        exact gone (same.mp live)

theorem remove_tidy (course : Removed state name input outcome) (tracked : Tracked state) :
    outcome.thrown = none → ∀ sub ∈ outcome.state.made, sub.plugin = name →
      ¬ outcome.state.bus.live sub.number := by
  cases course with
  | refused => nofun
  | undeleted => nofun
  | @removed entry admits =>
      intro _ sub member isPlugin
      have hooked := tracked_runHook tracked (admitted_record admits) entry.plugin .remove
        (buildContext entry none) input.hook
      obtain ⟨loaded, found⟩ := registry_runHook (admitted admits).1 entry.plugin .remove
        (buildContext entry none) input.hook
      exact drained_of_loaded hooked found member isPlugin

end Tidy

theorem tidy_iff_separate {host : Host} {state : State} (tracked : Tracked state)
    (backed : ∀ name, Backed (standing state name)) (action : Action) :
    Tidy host state action ↔ Separate host state action := by
  obtain ⟨operation, input⟩ := action
  cases operation with
  | install source => exact Iff.rfl
  | enable name guildId => exact Iff.rfl
  | disable name guildId => exact disable_tidy_iff (disablePlugin_course ..) tracked
  | update name => exact update_tidy_iff (updatePlugin_course ..) tracked
  | remove name => exact iff_of_true (remove_tidy (removePlugin_course ..) tracked) trivial
  | disableForGuild name guildId => exact disableForGuild_tidy_iff tracked backed
  | disableAll name => exact Iff.rfl
  | apiOn name context event => exact Iff.rfl

structure Kept (state : State) : Prop where
  tracked : Tracked state
  backed : ∀ name, Backed (standing state name)

theorem kept_start (bus : Events.Registries) : Kept (.start bus) where
  tracked := ⟨nofun, nofun, nofun, fun _ _ _ member => nomatch member⟩
  backed := fun _ _ => rfl

theorem kept_step {host : Host} {state next : State} {action : Action} (kept : Kept state)
    (taken : step host state action = some next) : Kept next := by
  obtain rfl := Option.some.inj taken
  exact ⟨tracked_perform host kept.tracked kept.backed _ _, backed_perform kept.backed _ _⟩

/-- Every step is tidy exactly in the runs in which a disabled guild is the only one with
subscriptions and an updated plugin has none. -/
theorem tidy_iff (host : Host) (bus : Events.Registries) (actions : List Action) :
    Guarded (step host) (Tidy host) (.start bus) actions ↔
      Guarded (step host) (Separate host) (.start bus) actions := by
  have agree : ∀ state action next, Kept state → step host state action = some next →
      (Tidy host state action ↔ Separate host state action) :=
    fun _ action _ kept _ => tidy_iff_separate kept.tracked kept.backed action
  exact guarded_congr (step host) (fun _ _ _ => kept_step) agree (kept_start bus) actions

def listening : Input :=
  { smooth with hook := { subscribes := [js "message.created"], outcome := .resolves } }

def listeningFor (guildId : JsString) : List Action :=
  [(.install (js "plugins/weather.js"), smooth), (.enable weather (some guildId), listening)]

/-- Disabling the plugin for a guild that never had it ends the subscription of the guild that
has it, and an update leaves the subscription of the version that it replaces. -/
theorem not_tidy :
    ¬ Guarded (step openHost) (Tidy openHost) (.start .empty)
      (listeningFor (js "100") ++ [(.disable weather (some (js "200")), smooth)]) ∧
    ¬ Guarded (step openHost) (Tidy openHost) (.start .empty)
      (listeningFor (js "100") ++ [(.update weather, smooth)]) := by
  constructor
  · intro guarded
    have last := ((guarded _ rfl).2 _ rfl).2 _ rfl
    have ended := last.1.1 { number := 0, plugin := weather, guildId := some (js "100") }
      (by decide +kernel) rfl (js "200") (js "100") rfl rfl (by decide +kernel) (by decide +kernel)
    exact absurd ended (by decide +kernel)
  · intro guarded
    have last := ((guarded _ rfl).2 _ rfl).2 _ rfl
    have gone := last.1 (by decide +kernel)
      { number := 0, plugin := weather, guildId := some (js "100") } (by decide +kernel) rfl
    exact absurd (by decide +kernel) gone

end Plugins
