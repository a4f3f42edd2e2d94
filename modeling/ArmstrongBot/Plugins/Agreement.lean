import ArmstrongBot.Library.StepMachine
import ArmstrongBot.Plugins.Standing
import Mathlib.Data.Finset.Basic
import Mathlib.Data.Fintype.EquivFin

/-! The three places in which a plugin is on for a guild: the status and the guilds of its entry,
and the stored rows. -/

namespace Plugins

open JsText Function StepMachine

def Standing.guilds (standing : Standing) : Finset JsString :=
  standing.loaded.elim ∅ Loaded.enabledGuilds

structure Agrees (standing : Standing) : Prop where
  status : standing.loaded.map Loaded.status = some .enabled ↔ standing.guilds.Nonempty
  rows : ∀ guildId, guildId ∈ standing.guilds ↔ standing.enablements (some guildId) = some true

/-- A guild may enable the plugin while others have it, and one that has it may disable it. -/
def Independent (standing : Standing) : Prop :=
  ∀ loaded, standing.loaded = some loaded → ∀ guildId,
    (guildId ∉ loaded.enabledGuilds → loaded.enabledGuilds.Nonempty →
      assertTransition loaded.status .enabled = true) ∧
    (guildId ∈ loaded.enabledGuilds → assertTransition loaded.status .disabled = true)

/-- The enabled guild is one, and its rows are written; a plugin is disabled for the only guild
that has it, or after an error; nothing else is done to a plugin that some guild has. -/
def Settles (state : State) : Action → Prop
  | (.enable name guildId, input) => ∀ entry, admission state name .enabled input = .ok entry →
      hookError entry.plugin .enable input.hook = none →
        (guildOf guildId).isSome = true ∧ input.fails .updateStatus = false ∧
          input.fails .setEnablement = false
  | (.disable name guildId, input) => ∀ entry, admission state name .disabled input = .ok entry →
      entry.status = .errored ∨
        (∃ guild, guildOf guildId = some guild ∧ entry.enabledGuilds = {guild}) ∧
          hookError entry.plugin .disable input.hook = none ∧
          input.fails .updateStatus = false ∧ input.fails .setEnablement = false
  | (.update name, input) => ∀ entry, admission state name .updating input ≠ .ok entry
  | (.disableForGuild name guildId, input) => ∀ entry, state.registry name = some entry →
      guildId ∈ entry.enabledGuilds → hookError entry.plugin .disable input.hook ≠ none
  | (.disableAll name, _) => ∀ entry, state.registry name = some entry → entry.status ≠ .enabled
  | _ => True

theorem guildOf_eq {guildId : Option JsString} {guild : JsString}
    (isGuild : guildOf guildId = some guild) : guildId = some guild := by
  obtain ⟨found, _⟩ := Option.filter_eq_some_iff.mp isGuild
  exact found

section Entry

variable {state : State} {name : JsString} {entry : LoadedPluginEntry}

theorem Agrees.nonempty_iff (agrees : Agrees (standing state name))
    (found : state.registry name = some entry) :
    entry.status = .enabled ↔ entry.enabledGuilds.Nonempty := by
  have status := agrees.status
  rw [Standing.guilds, standing_loaded found] at status
  simpa [LoadedPluginEntry.loaded] using status

theorem Agrees.row_iff (agrees : Agrees (standing state name))
    (found : state.registry name = some entry) (guildId : JsString) :
    guildId ∈ entry.enabledGuilds ↔ state.enablements name (some guildId) = some true := by
  have rows := agrees.rows guildId
  rwa [Standing.guilds, standing_loaded found] at rows

/-- A plugin that may be enabled has no guild yet. -/
theorem Agrees.empty_of_enables {input : Input} (agrees : Agrees (standing state name))
    (admits : admission state name .enabled input = .ok entry) : entry.enabledGuilds = ∅ := by
  obtain ⟨found, allowed⟩ := admitted admits
  rw [← Finset.not_nonempty_iff_eq_empty, ← agrees.nonempty_iff found]
  rcases enabled_of allowed with status | status <;> simp [status]

theorem Agrees.empty_iff_errored {input : Input} (agrees : Agrees (standing state name))
    (admits : admission state name .disabled input = .ok entry) :
    entry.enabledGuilds = ∅ ↔ entry.status = .errored := by
  obtain ⟨found, allowed⟩ := admitted admits
  rw [← Finset.not_nonempty_iff_eq_empty, ← agrees.nonempty_iff found]
  rcases disabled_of allowed with status | status <;> simp [status]

theorem settles_disable_iff {guildId : Option JsString} {input : Input}
    (admits : admission state name .disabled input = .ok entry) :
    Settles state (.disable name guildId, input) ↔
      entry.status = .errored ∨
        (∃ guild, guildOf guildId = some guild ∧ entry.enabledGuilds = {guild}) ∧
          hookError entry.plugin .disable input.hook = none ∧
          input.fails .updateStatus = false ∧ input.fails .setEnablement = false := by
  simp [Settles, admits]

end Entry

/-- A loaded plugin agrees with its rows when its status and its guilds do. -/
theorem agrees_loaded {loaded : Loaded} {record : Option PluginRecord}
    {enablements : Option JsString → Option Bool} :
    Agrees { loaded := some loaded, record, enablements } ↔
      (loaded.status = .enabled ↔ loaded.enabledGuilds.Nonempty) ∧
        ∀ guildId, guildId ∈ loaded.enabledGuilds ↔ enablements (some guildId) = some true :=
  ⟨fun agrees => ⟨by simpa [Standing.guilds] using agrees.status, agrees.rows⟩,
    fun both => ⟨by simpa [Standing.guilds] using both.1, both.2⟩⟩

theorem agrees_record {standing : Standing} (change : PluginRecord → PluginRecord) :
    Agrees (standing.store change) ↔ Agrees standing :=
  ⟨fun agrees => ⟨agrees.status, agrees.rows⟩, fun agrees => ⟨agrees.status, agrees.rows⟩⟩

theorem load_store (standing : Standing) (record : PluginRecord → PluginRecord)
    (loaded : Loaded → Loaded) :
    (standing.store record).load loaded = (standing.load loaded).store record := rfl

theorem load_withStatus (standing : Standing) (first second : PluginStatus) :
    (standing.load fun loaded => loaded.withStatus first).load
        (fun loaded => loaded.withStatus second) =
      standing.load fun loaded => loaded.withStatus second := by
  simp only [Standing.load, Option.map_map]
  rfl

theorem agrees_markErrored {standing : Standing} (input : Input) :
    Agrees (standing.markErrored input) ↔
      Agrees (standing.load fun loaded => loaded.withStatus .errored) := by
  unfold Standing.markErrored
  split
  · rfl
  · exact agrees_record _

section Changes

variable {before : Standing} {loaded : Loaded} (guildId : Option JsString)

theorem not_agrees_enabledFor (agrees : Agrees before) (found : before.loaded = some loaded)
    (empty : loaded.enabledGuilds = ∅) :
    ¬ Agrees (before.load fun loaded => loaded.enabledFor guildId) := by
  have rows := agrees.rows
  simp only [Standing.guilds, found, Option.elim_some, empty, Finset.notMem_empty, false_iff] at rows
  intro enabled
  have newRows := enabled.rows
  have status := enabled.status
  cases isGuild : guildOf guildId with
  | none => simp [Standing.guilds, Standing.load, found, Loaded.enabledFor, isGuild, empty] at status
  | some guild =>
      have listed := (newRows guild).mp (by
        simp [Standing.guilds, Standing.load, found, Loaded.enabledFor, isGuild])
      exact rows guild listed

theorem agrees_enabledFor_iff (agrees : Agrees before) (found : before.loaded = some loaded)
    (empty : loaded.enabledGuilds = ∅) :
    Agrees ((before.load fun loaded => loaded.enabledFor guildId).enablement guildId true) ↔
      (guildOf guildId).isSome = true := by
  have rows := agrees.rows
  simp only [Standing.guilds, found, Option.elim_some, empty, Finset.notMem_empty, false_iff] at rows
  simp only [Standing.enablement, Standing.load, found, Option.map_some, agrees_loaded]
  cases isGuild : guildOf guildId with
  | none => simp [Loaded.enabledFor, isGuild, empty]
  | some guild =>
      obtain rfl := guildOf_eq isGuild
      refine iff_of_true ⟨by simp [Loaded.enabledFor, isGuild], ?_⟩ rfl
      intro other
      by_cases same : other = guild
      · simp [Loaded.enabledFor, isGuild, same]
      · simp [Loaded.enabledFor, isGuild, same, empty, rows]

theorem agrees_disabledFor_iff (agrees : Agrees before) (found : before.loaded = some loaded) :
    Agrees (before.load fun loaded => loaded.disabledFor guildId) ↔ loaded.enabledGuilds = ∅ := by
  have rows := agrees.rows
  simp only [Standing.guilds, found, Option.elim_some] at rows
  simp only [Standing.load, found, Option.map_some, agrees_loaded]
  constructor
  · rintro ⟨status, newRows⟩
    have emptied : (loaded.disabledFor guildId).enabledGuilds = ∅ := by
      simpa [Loaded.disabledFor, Finset.not_nonempty_iff_eq_empty] using status
    refine Finset.eq_empty_of_forall_notMem ?_
    intro guild member
    have kept := (newRows guild).mpr ((rows guild).mp member)
    simp [emptied] at kept
  · intro empty
    have emptied : (loaded.disabledFor guildId).enabledGuilds = ∅ := by
      cases isGuild : guildOf guildId <;> simp [Loaded.disabledFor, isGuild, empty]
    rw [emptied]
    exact ⟨by simp [Loaded.disabledFor], fun guild => by simpa [empty] using rows guild⟩

theorem agrees_disabled_iff (agrees : Agrees before) (found : before.loaded = some loaded) :
    Agrees ((before.load fun loaded => loaded.disabledFor guildId).enablement guildId false) ↔
      loaded.enabledGuilds = ∅ ∨
        ∃ guild, guildOf guildId = some guild ∧ loaded.enabledGuilds = {guild} := by
  have rows := agrees.rows
  simp only [Standing.guilds, found, Option.elim_some] at rows
  simp only [Standing.enablement, Standing.load, found, Option.map_some, agrees_loaded]
  have emptied_iff : (loaded.disabledFor guildId).enabledGuilds = ∅ ↔
      loaded.enabledGuilds = ∅ ∨
        ∃ guild, guildOf guildId = some guild ∧ loaded.enabledGuilds = {guild} := by
    cases isGuild : guildOf guildId <;>
      simp [Loaded.disabledFor, isGuild, Finset.erase_eq_empty_iff]
  rw [← emptied_iff]
  constructor
  · rintro ⟨status, _⟩
    simpa [Loaded.disabledFor, Finset.not_nonempty_iff_eq_empty] using status
  · intro emptied
    rw [emptied]
    refine ⟨by simp [Loaded.disabledFor], ?_⟩
    intro other
    by_cases same : guildId = some other
    · simp [same]
    · have kept : other ∉ loaded.enabledGuilds := by
        rcases emptied_iff.mp emptied with empty | ⟨guild, isGuild, single⟩
        · simp [empty]
        · have different : other ≠ guild := by
            rintro rfl
            exact same (guildOf_eq isGuild)
          simp [single, different]
      have row := rows other
      simp only [kept, false_iff] at row
      simp [Ne.symm same, row]

omit guildId in
/-- An error agrees with the rows only where no guild has the plugin. -/
theorem agrees_errored_iff (agrees : Agrees before) (found : before.loaded = some loaded)
    {status : PluginStatus} (notEnabled : status ≠ .enabled) :
    Agrees (before.load fun loaded => loaded.withStatus status) ↔ loaded.enabledGuilds = ∅ := by
  have rows := agrees.rows
  simp only [Standing.guilds, found, Option.elim_some] at rows
  simp only [Standing.load, found, Option.map_some, agrees_loaded, Loaded.withStatus]
  simp [notEnabled, Finset.not_nonempty_iff_eq_empty, rows]

end Changes

section Operations

variable {state : State} {name : JsString} {guildId : Option JsString} {input : Input}
  {outcome : Outcome}

theorem enable_agrees_iff
    (course : Switched state name guildId input .enabled .enable (settleEnabled name guildId) true
      outcome) (agrees : Agrees (standing state name)) :
    Agrees (standing outcome.state name) ↔ Settles state (.enable name guildId, input) := by
  cases course with
  | refused refuses =>
      refine iff_of_true agrees ?_
      intro entry admits
      rw [refuses] at admits
      cases admits
  | @failed entry code admits fails =>
      have found := standing_loaded (admitted admits).1
      refine iff_of_true ?_ ?_
      · simp only [standing_markErrored, standing_runHook, update_self, agrees_markErrored]
        exact (agrees_errored_iff agrees found (by decide)).mpr (agrees.empty_of_enables admits)
      · intro other others passes
        rw [admits] at others
        cases others
        rw [fails] at passes
        cases passes
  | unstored admits passes unstored =>
      have found := standing_loaded (admitted admits).1
      refine iff_of_false ?_ ?_
      · simp only [standing_settleEnabled, standing_runHook, update_self]
        exact not_agrees_enabledFor guildId agrees found (agrees.empty_of_enables admits)
      · intro settles
        have stored := (settles _ admits passes).2.1
        rw [unstored] at stored
        cases stored
  | unlisted admits passes stored unlisted =>
      have found := standing_loaded (admitted admits).1
      refine iff_of_false ?_ ?_
      · simp only [standing_updateStatus, standing_settleEnabled, standing_runHook, update_self,
          agrees_record]
        exact not_agrees_enabledFor guildId agrees found (agrees.empty_of_enables admits)
      · intro settles
        have listed := (settles _ admits passes).2.2
        rw [unlisted] at listed
        cases listed
  | switched admits passes stored listed =>
      have found := standing_loaded (admitted admits).1
      have exactly := agrees_enabledFor_iff guildId agrees found
        (agrees.empty_of_enables admits)
      rw [standing_setEnablement, update_self, standing_updateStatus, update_self,
        standing_settleEnabled, update_self, standing_runHook]
      constructor
      · intro enabled other others _
        exact ⟨exactly.mp ⟨enabled.status, enabled.rows⟩, stored, listed⟩
      · intro settles
        have enabled := exactly.mpr (settles _ admits passes).1
        exact ⟨enabled.status, enabled.rows⟩

theorem disable_agrees_iff
    (course : Switched state name guildId input .disabled .disable (settleDisabled name guildId)
      false outcome) (agrees : Agrees (standing state name)) :
    Agrees (standing outcome.state name) ↔ Settles state (.disable name guildId, input) := by
  cases course with
  | refused refuses =>
      refine iff_of_true agrees ?_
      intro entry admits
      rw [refuses] at admits
      cases admits
  | @failed entry code admits fails =>
      have found := standing_loaded (admitted admits).1
      simp only [standing_markErrored, standing_runHook, update_self, agrees_markErrored]
      rw [agrees_errored_iff agrees found (by decide), settles_disable_iff admits]
      simp [fails, LoadedPluginEntry.loaded, agrees.empty_iff_errored admits]
  | @unstored entry admits passes unstored =>
      have found := standing_loaded (admitted admits).1
      simp only [standing_settleDisabled, standing_runHook, update_self]
      rw [agrees_disabledFor_iff guildId agrees found, settles_disable_iff admits]
      simp [unstored, LoadedPluginEntry.loaded, agrees.empty_iff_errored admits]
  | unlisted admits passes stored unlisted =>
      have found := standing_loaded (admitted admits).1
      simp only [standing_updateStatus, standing_settleDisabled, standing_runHook, update_self,
        agrees_record]
      rw [agrees_disabledFor_iff guildId agrees found, settles_disable_iff admits]
      simp [unlisted, LoadedPluginEntry.loaded, agrees.empty_iff_errored admits]
  | @switched entry admits passes stored listed =>
      have found := standing_loaded (admitted admits).1
      have exactly := agrees_disabled_iff guildId agrees found
      rw [standing_setEnablement, update_self, standing_updateStatus, update_self,
        standing_settleDisabled, update_self, standing_runHook, settles_disable_iff admits,
        ← agrees.empty_iff_errored admits]
      simp only [passes, stored, listed, and_true]
      constructor
      · intro disabled
        exact exactly.mp ⟨disabled.status, disabled.rows⟩
      · intro settles
        have disabled := exactly.mpr settles
        exact ⟨disabled.status, disabled.rows⟩

omit guildId in
/-- Only a plugin that some guild has can be updated, and no update leaves it `enabled`. -/
theorem update_agrees_iff {host : Host} (course : Updated host state name input outcome)
    (agrees : Agrees (standing state name)) :
    Agrees (standing outcome.state name) ↔ Settles state (.update name, input) := by
  have disagrees : ∀ {entry : LoadedPluginEntry} {status : PluginStatus},
      admission state name .updating input = .ok entry → status ≠ .enabled →
      ¬ Agrees ((standing state name).load fun loaded => loaded.withStatus status) := by
    intro entry status admits notEnabled agreesStill
    obtain ⟨found, allowed⟩ := admitted admits
    have empty := (agrees_errored_iff agrees (standing_loaded found) notEnabled).mp agreesStill
    have nonempty := (agrees.nonempty_iff found).mp (updating_of allowed)
    exact nonempty.ne_empty empty
  have unsettled : ∀ {entry : LoadedPluginEntry},
      admission state name .updating input = .ok entry → ¬ Settles state (.update name, input) :=
    fun admits settles => settles _ admits
  cases course with
  | refused refuses =>
      refine iff_of_true agrees ?_
      intro entry admits
      rw [refuses] at admits
      cases admits
  | unstored admits =>
      refine iff_of_false ?_ (unsettled admits)
      rw [standing_withStatus, update_self]
      exact disagrees admits (by decide)
  | unloaded admits =>
      refine iff_of_false ?_ (unsettled admits)
      rw [standing_updateStatus, update_self, standing_withStatus, update_self, agrees_record]
      exact disagrees admits (by decide)
  | failed admits =>
      refine iff_of_false ?_ (unsettled admits)
      rw [standing_markErrored, update_self, agrees_markErrored, standing_runHook,
        standing_updateStatus, update_self, standing_withStatus, update_self]
      rw [load_store, agrees_record, load_withStatus]
      exact disagrees admits (by decide)
  | unversioned admits =>
      refine iff_of_false ?_ (unsettled admits)
      rw [standing_replaced, update_self, standing_runHook,
        standing_updateStatus, update_self, standing_withStatus, update_self]
      rw [load_store, agrees_record, load_withStatus]
      exact disagrees admits (by decide)
  | updated admits =>
      refine iff_of_false ?_ (unsettled admits)
      rw [standing_updateVersion, update_self, agrees_record, standing_replaced, update_self,
        standing_runHook, standing_updateStatus, update_self, standing_withStatus, update_self]
      rw [load_store, agrees_record, load_withStatus]
      exact disagrees admits (by decide)

omit guildId in
theorem remove_agrees (course : Removed state name input outcome)
    (agrees : Agrees (standing state name)) : Agrees (standing outcome.state name) := by
  have unloaded : ∀ {entry : LoadedPluginEntry}, admission state name .removed input = .ok entry →
      Agrees { standing state name with loaded := none } := by
    intro entry admits
    obtain ⟨found, allowed⟩ := admitted admits
    have empty : entry.enabledGuilds = ∅ := by
      rw [← Finset.not_nonempty_iff_eq_empty, ← agrees.nonempty_iff found]
      rcases removed_of allowed with status | status | status <;> simp [status]
    refine ⟨by simp [Standing.guilds], ?_⟩
    intro guild
    have row := agrees.row_iff found guild
    simpa [Standing.guilds, empty, standing] using row
  cases course with
  | refused => exact agrees
  | undeleted admits =>
      rw [standing_unload, update_self, standing_drainDisposers, standing_runHook]
      exact unloaded admits
  | removed admits =>
      rw [standing_softDelete, update_self, agrees_record, standing_unload, update_self,
        standing_drainDisposers, standing_runHook]
      exact unloaded admits

/-- A new plugin comes under a name of which there is no row, so that no guild has it. -/
theorem install_agrees {host : Host} {source : JsString}
    (course : Installed host state input source outcome)
    (agrees : ∀ name, Agrees (standing state name)) (backed : ∀ name, Backed (standing state name)) :
    ∀ name, Agrees (standing outcome.state name) := by
  have absent : ∀ {plugin : Plugin},
      (input.fails .create || (state.records plugin.manifest.name).isSome) = false →
      (standing state plugin.manifest.name).loaded = none := by
    intro plugin created
    exact backed _ (by simpa [standing] using (Bool.or_eq_false_iff.mp created).2)
  have newStatus : ∀ (plugin : Plugin) (status : PluginStatus), status ≠ .enabled →
      ((installedEntry plugin).loaded.withStatus status).status ≠ .enabled :=
    fun _ _ notEnabled => notEnabled
  have fresh : ∀ {plugin : Plugin} {record : Option PluginRecord} {loaded : Option Loaded},
      (input.fails .create || (state.records plugin.manifest.name).isSome) = false →
      (∀ found, loaded = some found → found.status ≠ .enabled ∧ found.enabledGuilds = ∅) →
      Agrees { standing state plugin.manifest.name with record, loaded } := by
    intro plugin record loaded created off
    have rows := (agrees plugin.manifest.name).rows
    simp only [Standing.guilds, absent created, Option.elim_none, Finset.notMem_empty,
      false_iff] at rows
    cases loaded with
    | none =>
        exact ⟨by simp [Standing.guilds],
          fun guild => by simpa [Standing.guilds] using rows guild⟩
    | some found =>
        obtain ⟨notEnabled, empty⟩ := off found rfl
        rw [agrees_loaded]
        exact ⟨by simp [notEnabled, empty], fun guild => by simpa [empty] using rows guild⟩
  cases course with
  | refused => exact agrees
  | uncreated => exact agrees
  | unrecorded vetted created =>
      rw [(moves_create ..).forall_iff agrees, standing_create, update_self]
      exact fresh created fun found isLoaded => by
        rw [absent created] at isLoaded
        cases isLoaded
  | @failed plugin _ vetted created =>
      rw [(((moves_load_entry ..).trans (moves_runHook ..)).trans (moves_markErrored ..)).forall_iff
        agrees]
      rw [standing_markErrored, update_self, agrees_markErrored, standing_runHook,
        standing_setEntry, update_self, standing_create, update_self]
      exact fresh created fun found isLoaded => by
        cases isLoaded
        exact ⟨newStatus plugin .errored (by decide), rfl⟩
  | @installed plugin vetted created =>
      rw [((moves_load_entry ..).trans (moves_runHook ..)).forall_iff agrees]
      rw [standing_runHook, standing_setEntry, update_self, standing_create, update_self]
      exact fresh created fun found isLoaded => by
        cases isLoaded
        exact ⟨newStatus plugin .installed (by decide), rfl⟩

theorem disableForGuild_agrees_iff {guild : JsString} (agrees : Agrees (standing state name)) :
    Agrees (standing (disableForGuild state name guild input) name) ↔
      Settles state (.disableForGuild name guild, input) := by
  unfold disableForGuild
  split
  · rename_i absent
    exact iff_of_true agrees fun entry found => by rw [absent] at found; cases found
  rename_i entry found
  have here : Settles state (.disableForGuild name guild, input) ↔
      (guild ∈ entry.enabledGuilds → hookError entry.plugin .disable input.hook ≠ none) := by
    simp [Settles, found]
  rw [here]
  split
  · rename_i member
    dsimp only
    split
    · rename_i fails
      rw [standing_runHook]
      exact iff_of_true agrees fun _ => by simp [fails]
    · rename_i passes
      refine iff_of_false ?_ fun settles => settles member passes
      rw [standing_without, update_self, standing_drainDisposers, standing_runHook]
      intro without
      have row := (without.rows guild).mpr ((agrees.row_iff found guild).mp member)
      simp [Standing.guilds, Standing.load, standing_loaded found, Loaded.without] at row
  · rename_i notMember
    exact iff_of_true agrees fun member => absurd member notMember

theorem disableAll_agrees_iff (agrees : Agrees (standing state name)) :
    Agrees (standing (disableAll state name input) name) ↔
      Settles state (.disableAll name, input) := by
  unfold disableAll
  split
  · rename_i absent
    exact iff_of_true agrees fun entry found => by rw [absent] at found; cases found
  rename_i entry found
  have here : Settles state (.disableAll name, input) ↔ entry.status ≠ .enabled := by
    simp [Settles, found]
  rw [here]
  split
  · rename_i enabled
    have nonempty := (agrees.nonempty_iff found).mp enabled
    refine iff_of_false ?_ fun settles => settles enabled
    dsimp only
    split
    · rw [standing_withStatus, update_self, standing_runHook,
        agrees_errored_iff agrees (standing_loaded found) (by decide)]
      exact nonempty.ne_empty
    · rw [standing_withStatus, update_self, standing_drainDisposers, standing_runHook,
        agrees_errored_iff agrees (standing_loaded found) (by decide)]
      exact nonempty.ne_empty
  · rename_i notEnabled
    exact iff_of_true agrees notEnabled

end Operations

theorem perform_agrees_iff (host : Host) {state : State}
    (agrees : ∀ name, Agrees (standing state name)) (backed : ∀ name, Backed (standing state name))
    (operation : Operation) (input : Input) :
    (∀ name, Agrees (standing (perform host state operation input).state name)) ↔
      Settles state (operation, input) := by
  cases operation with
  | install source =>
      exact iff_of_true (install_agrees (installPlugin_course ..) agrees backed) trivial
  | enable name guildId =>
      exact ((enablePlugin_moves ..).forall_iff agrees).trans
        (enable_agrees_iff (enablePlugin_course ..) (agrees name))
  | disable name guildId =>
      exact ((disablePlugin_moves ..).forall_iff agrees).trans
        (disable_agrees_iff (disablePlugin_course ..) (agrees name))
  | update name =>
      exact ((updatePlugin_course ..).moves.forall_iff agrees).trans
        (update_agrees_iff (updatePlugin_course ..) (agrees name))
  | remove name =>
      refine iff_of_true ?_ trivial
      exact ((removePlugin_course ..).moves.forall_iff agrees).mpr
        (remove_agrees (removePlugin_course ..) (agrees name))
  | disableForGuild name guildId =>
      exact ((moves_disableForGuild ..).forall_iff agrees).trans
        (disableForGuild_agrees_iff (agrees name))
  | disableAll name =>
      exact ((moves_disableAll ..).forall_iff agrees).trans (disableAll_agrees_iff (agrees name))
  | apiOn name context event =>
      refine iff_of_true ?_ trivial
      simp only [perform]
      split
      · rw [standing_apiOn]
        exact agrees
      · exact agrees

/-! A plugin that no guild has ever had. -/

/-- No `enable` gets past its hook. -/
def NeverEnabled (state : State) : Action → Prop
  | (.enable name _, input) => ∀ entry, admission state name .enabled input = .ok entry →
      hookError entry.plugin .enable input.hook ≠ none
  | _ => True

structure Dormant (standing : Standing) : Prop where
  agrees : Agrees standing
  rows : ∀ guildId, standing.enablements (some guildId) ≠ some true

theorem Dormant.empty {before : Standing} (dormant : Dormant before) {loaded : Loaded}
    (found : before.loaded = some loaded) : loaded.enabledGuilds = ∅ := by
  refine Finset.eq_empty_of_forall_notMem ?_
  intro guild member
  refine dormant.rows guild ((dormant.agrees.rows guild).mp ?_)
  simpa [Standing.guilds, found] using member

theorem Dormant.independent {before : Standing} (dormant : Dormant before) :
    Independent before := by
  intro loaded found guildId
  simp [dormant.empty found]

section Rows

variable {host : Host} {state : State} {name : JsString} {guildId : Option JsString} {input : Input}
  {outcome : Outcome}

@[simp] theorem enablements_runHook (plugin : Plugin) (phase : Phase) (context : PluginContext)
    (hook : HookRun) :
    (runHook state name plugin phase context hook).enablements = state.enablements := by
  funext other
  exact congrArg Standing.enablements
    (congrFun (standing_runHook state name plugin phase context hook) other)

theorem enablements_markErrored (code : PluginErrorCode) :
    (markErrored state name code input).state.enablements = state.enablements := by
  unfold markErrored
  split <;> rfl

theorem Updated.enablements (course : Updated host state name input outcome) :
    outcome.state.enablements = state.enablements := by
  cases course with
  | refused | unstored | unloaded => rfl
  | failed => exact (enablements_markErrored _).trans (enablements_runHook ..)
  | unversioned | updated => exact enablements_runHook ..

theorem Removed.enablements (course : Removed state name input outcome) :
    outcome.state.enablements = state.enablements := by
  cases course with
  | refused => rfl
  | undeleted | removed => exact enablements_runHook ..

theorem Installed.enablements {source : JsString}
    (course : Installed host state input source outcome) :
    outcome.state.enablements = state.enablements := by
  cases course with
  | refused | uncreated | unrecorded => rfl
  | failed => exact (enablements_markErrored _).trans (enablements_runHook ..)
  | installed => exact enablements_runHook ..

theorem enablements_disableForGuild (guild : JsString) :
    (disableForGuild state name guild input).enablements = state.enablements := by
  unfold disableForGuild
  split
  · rfl
  split
  · dsimp only
    split <;> exact enablements_runHook ..
  · rfl

theorem enablements_disableAll :
    (disableAll state name input).enablements = state.enablements := by
  unfold disableAll
  split
  · rfl
  split
  · dsimp only
    split <;> exact enablements_runHook ..
  · rfl

/-- Only an `enable` that gets past its hook writes a row of an enabled guild. -/
theorem perform_rows (host : Host) {operation : Operation}
    (never : NeverEnabled state (operation, input))
    (noRows : ∀ name guildId, state.enablements name (some guildId) ≠ some true) :
    ∀ name guildId,
      (perform host state operation input).state.enablements name (some guildId) ≠ some true := by
  have unchanged : ∀ {next : State}, next.enablements = state.enablements →
      ∀ name guildId, next.enablements name (some guildId) ≠ some true := by
    intro next same
    rwa [same]
  cases operation with
  | install source => exact unchanged (installPlugin_course ..).enablements
  | enable name guildId =>
      have course := enablePlugin_course state name guildId input
      simp only [perform]
      generalize enablePlugin state name guildId input = outcome at course ⊢
      cases course with
      | refused => exact noRows
      | failed => exact unchanged ((enablements_markErrored _).trans (enablements_runHook ..))
      | unstored admits passes => exact absurd passes (never _ admits)
      | unlisted admits passes => exact absurd passes (never _ admits)
      | switched admits passes => exact absurd passes (never _ admits)
  | disable name guildId =>
      have course := disablePlugin_course state name guildId input
      simp only [perform]
      generalize disablePlugin state name guildId input = outcome at course ⊢
      cases course with
      | refused => exact noRows
      | failed => exact unchanged ((enablements_markErrored _).trans (enablements_runHook ..))
      | unstored => exact unchanged (enablements_runHook ..)
      | unlisted => exact unchanged (enablements_runHook ..)
      | @switched entry =>
          have same : (updateStatus (settleDisabled name guildId
              (runHook state name entry.plugin .disable (buildContext entry guildId) input.hook))
              name .disabled).enablements = state.enablements := enablements_runHook ..
          intro other guild
          by_cases isName : other = name
          · subst isName
            by_cases isGuild : some guild = guildId
            · simp [setEnablement, isGuild]
            · have row := unchanged same other guild
              simpa [setEnablement, isGuild] using row
          · have row := unchanged same other guild
            simpa [setEnablement, isName] using row
  | update name => exact unchanged (updatePlugin_course ..).enablements
  | remove name => exact unchanged (removePlugin_course ..).enablements
  | disableForGuild name guildId => exact unchanged (enablements_disableForGuild guildId)
  | disableAll name => exact unchanged enablements_disableAll
  | apiOn name context event =>
      simp only [perform]
      split
      · exact unchanged rfl
      · exact noRows

end Rows

theorem settles_of_never {state : State} (dormant : ∀ name, Dormant (standing state name))
    {action : Action} (never : NeverEnabled state action) : Settles state action := by
  have noGuild : ∀ {name : JsString} {entry : LoadedPluginEntry},
      state.registry name = some entry → entry.enabledGuilds = ∅ ∧ entry.status ≠ .enabled := by
    intro name entry found
    have empty : entry.enabledGuilds = ∅ := (dormant name).empty (standing_loaded found)
    refine ⟨empty, ?_⟩
    rw [ne_eq, (dormant name).agrees.nonempty_iff found, empty]
    exact Finset.not_nonempty_empty
  obtain ⟨operation, input⟩ := action
  cases operation with
  | install source => trivial
  | enable name guildId => exact fun entry admits passes => absurd passes (never entry admits)
  | disable name guildId =>
      intro entry admits
      obtain ⟨found, allowed⟩ := admitted admits
      exact .inl ((disabled_of allowed).resolve_left (noGuild found).2)
  | update name =>
      intro entry admits
      obtain ⟨found, allowed⟩ := admitted admits
      exact (noGuild found).2 (updating_of allowed)
  | remove name => trivial
  | disableForGuild name guildId =>
      intro entry found member
      rw [(noGuild found).1] at member
      cases member
  | disableAll name => exact fun entry found => (noGuild found).2
  | apiOn name context event => trivial

/-- Some guild always differs from those that have the plugin. -/
theorem exists_other_guild (guilds : Finset JsString) : ∃ guild, guild ∉ guilds :=
  Infinite.exists_notMem_finset guilds

/-- Once an `enable` is through, the plugin is closed to every other guild. -/
theorem not_independent_of_enabled {state : State} {name : JsString} {guildId : Option JsString}
    {input : Input} {entry : LoadedPluginEntry}
    (admits : admission state name .enabled input = .ok entry)
    (passes : hookError entry.plugin .enable input.hook = none)
    (agrees : Agrees (standing (enablePlugin state name guildId input).state name)) :
    ¬ Independent (standing (enablePlugin state name guildId input).state name) := by
  have enabled : (standing (enablePlugin state name guildId input).state name).loaded =
      some (entry.loaded.enabledFor guildId) := by
    have found := standing_loaded (admitted admits).1
    have course := enablePlugin_course state name guildId input
    generalize enablePlugin state name guildId input = outcome at course ⊢
    cases course with
    | refused refuses => rw [admits] at refuses; cases refuses
    | failed others fails =>
        rw [admits] at others
        cases others
        rw [passes] at fails
        cases fails
    | unstored => simp [Standing.load, found]
    | unlisted => simp [Standing.load, Standing.store, found]
    | switched => simp [Standing.enablement, Standing.load, Standing.store, found]
  intro independent
  have nonempty := agrees.status.mp (by rw [enabled]; rfl)
  rw [Standing.guilds, enabled] at nonempty
  obtain ⟨guild, other⟩ := exists_other_guild (entry.loaded.enabledFor guildId).enabledGuilds
  have allowed := (independent _ enabled guild).1 other nonempty
  simp [Loaded.enabledFor, assertTransition, allowedTransitions] at allowed

section Runs

variable (host : Host) (bus : Events.Registries)

theorem agrees_start (name : JsString) : Agrees (standing (State.start bus) name) :=
  ⟨by simp [standing, State.start, Standing.guilds],
    fun guildId => by simp [standing, State.start, Standing.guilds]⟩

theorem backed_start (name : JsString) : Backed (standing (State.start bus) name) := fun _ => rfl

structure Agreed (state : State) : Prop where
  agrees : ∀ name, Agrees (standing state name)
  backed : ∀ name, Backed (standing state name)

structure Resting (state : State) : Prop where
  dormant : ∀ name, Dormant (standing state name)
  backed : ∀ name, Backed (standing state name)

theorem agrees_throughout_iff (actions : List Action) :
    Always (step host) (fun state => ∀ name, Agrees (standing state name)) (.start bus) actions ↔
      Guarded (step host) Settles (.start bus) actions := by
  have sound : ∀ state, Agreed state → ∀ name, Agrees (standing state name) :=
    fun _ agreed => agreed.agrees
  refine always_iff_guarded (step host) sound ?_ ?_ ⟨agrees_start bus, backed_start bus⟩ actions
  · rintro state ⟨operation, input⟩ next ⟨agrees, backed⟩ settles taken
    obtain rfl := Option.some.inj taken
    exact ⟨(perform_agrees_iff host agrees backed operation input).mpr settles,
      backed_perform backed operation input⟩
  · rintro state ⟨operation, input⟩ next ⟨agrees, backed⟩ taken agreesNext
    obtain rfl := Option.some.inj taken
    exact (perform_agrees_iff host agrees backed operation input).mp agreesNext

theorem independent_throughout_iff (actions : List Action) :
    Always (step host) (fun state => ∀ name, Agrees (standing state name) ∧
        Independent (standing state name)) (.start bus) actions ↔
      Guarded (step host) NeverEnabled (.start bus) actions := by
  have sound : ∀ state, Resting state → ∀ name, Agrees (standing state name) ∧
      Independent (standing state name) :=
    fun _ resting name => ⟨(resting.dormant name).agrees, (resting.dormant name).independent⟩
  refine always_iff_guarded (step host) sound ?_ ?_
    ⟨fun name => ⟨agrees_start bus name, fun _ => nofun⟩, backed_start bus⟩ actions
  · rintro state ⟨operation, input⟩ next ⟨dormant, backed⟩ never taken
    obtain rfl := Option.some.inj taken
    have agrees := (perform_agrees_iff host (fun name => (dormant name).agrees) backed operation
      input).mpr (settles_of_never dormant never)
    have rows := perform_rows host never fun name => (dormant name).rows
    exact ⟨fun name => ⟨agrees name, rows name⟩, backed_perform backed operation input⟩
  · rintro state ⟨operation, input⟩ next ⟨dormant, backed⟩ taken holds
    obtain rfl := Option.some.inj taken
    cases operation with
    | enable name guildId =>
        intro entry admits passes
        exact not_independent_of_enabled admits passes (holds name).1 (holds name).2
    | _ => trivial

/-- The entry, the guilds in memory and the stored rows agree as long as every step settles; they
do so, and no guild is in the way of another one, only as long as nothing is ever enabled. -/
theorem agreement_iff (actions : List Action) :
    (Always (step host) (fun state => ∀ name, Agrees (standing state name) ∧
        Independent (standing state name)) (.start bus) actions ↔
      Guarded (step host) NeverEnabled (.start bus) actions) ∧
    (Always (step host) (fun state => ∀ name, Agrees (standing state name)) (.start bus) actions ↔
      Guarded (step host) Settles (.start bus) actions) :=
  ⟨independent_throughout_iff host bus actions, agrees_throughout_iff host bus actions⟩

end Runs

section Example

def installed : List Action :=
  [(.install (js "plugins/weather.js"), smooth), (.enable weather (some (js "100")), smooth)]

/-- With the plugin enabled for one guild another guild cannot have it, and after that guild is
gone the plugin is still `enabled`, as is the stored row of the guild. -/
theorem agreement_fails :
    ¬ Always (step openHost) (fun state => ∀ name, Agrees (standing state name) ∧
      Independent (standing state name)) (.start .empty) installed ∧
    ¬ Always (step openHost) (fun state => ∀ name, Agrees (standing state name)) (.start .empty)
      (installed ++ [(.disableForGuild weather (js "100"), smooth)]) := by
  refine ⟨not_always _ (fun state => (state.registry weather).all fun entry =>
      decide (js "200" ∈ entry.enabledGuilds) || !decide (js "100" ∈ entry.enabledGuilds) ||
        assertTransition entry.status .enabled) ?_ (by decide +kernel),
    not_always _ (fun state => decide (js "100" ∈ ((state.registry weather).elim ∅
        LoadedPluginEntry.enabledGuilds)) ||
      decide (state.enablements weather (some (js "100")) ≠ some true)) ?_ (by decide +kernel)⟩
  · intro state holds
    cases found : state.registry weather with
    | none => rfl
    | some entry =>
        have independent := (holds weather).2 entry.loaded (standing_loaded found) (js "200")
        simp only [Option.all_some, Bool.or_eq_true, Bool.not_eq_true', decide_eq_true_eq,
          decide_eq_false_iff_not]
        by_cases member : js "200" ∈ entry.enabledGuilds
        · exact .inl (.inl member)
        by_cases other : js "100" ∈ entry.enabledGuilds
        · exact .inr (independent.1 member ⟨_, other⟩)
        · exact .inl (.inr other)
  · intro state agrees
    have row := (agrees weather).rows (js "100")
    by_cases enabled : state.enablements weather (some (js "100")) = some true
    · have member := row.mpr enabled
      cases found : state.registry weather <;>
        simp_all [Standing.guilds, standing, LoadedPluginEntry.loaded]
    · simp [enabled]

end Example

end Plugins
