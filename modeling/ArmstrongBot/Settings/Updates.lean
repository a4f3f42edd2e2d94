import ArmstrongBot.Library.JsonObject
import ArmstrongBot.Library.StepMachine

/-! The settings of a guild, one JSON value into which the services of three modules write their
namespaces. An update reads the row, merges, and writes the whole value back. -/

namespace GuildSettings

open JsText JsJson StepMachine

inductive SettingsModule
  | audit
  | notifications
  | security
  deriving DecidableEq

def SettingsModule.key : SettingsModule → JsString
  | .audit => js "audit"
  | .notifications => js "notifications"
  | .security => js "security"

/-- `value && typeof value === 'object' ? { ...value } : {}`. -/
def asObject : Json → Fields
  | .obj fields => fields
  | .arr items => items.zipIdx.map fun item => (natText item.2, item.1)
  | _ => []

/-- `{ ...fields, ...added }`. -/
def spread (fields added : Fields) : Fields :=
  added.foldl (fun merged field => insertField merged field.1 field.2) fields

/-- `value ?? other`. -/
def coalesce : Option Json → Option Json → Option Json
  | some .null, other => other
  | none, other => other
  | value, _ => value

/-- What the environment sets for the audit of a guild, as `num` and `bool` read it. -/
structure AuditEnv where
  retentionDays : Option Json
  archiveBeforeDelete : Option Json
  archiveFormat : Option Json

/-- The field of the settings object in the row, which is none where there is no row. -/
def field (row : Option Json) (key : JsString) : Option Json :=
  (asObject (row.getD .null)).lookup key

/-- Where an update stands: at the `findUnique`, at the second one, which only that of the security
module makes, or at the `update`, with the number of writes before its last read. -/
inductive Phase
  | reading
  | rereading (merged : Json)
  | writing (settings : Fields) (since : Nat)
  | completed
  | failed

structure Update where
  module : SettingsModule
  patch : Fields
  phase : Phase

def Update.to (call : Update) (phase : Phase) : Update := { call with phase }

structure Write where
  module : SettingsModule
  value : Option Json

/-- The settings of the row, and the writes, the last one first. -/
structure State where
  row : Option Json
  calls : List Update
  log : List Write

def State.start (initial : Option Json) : State := { row := initial, calls := [], log := [] }

section

variable (parse : SettingsModule → Json → Option Json) (env : AuditEnv)

/-- `resolveAuditGuildConfig`: what is undefined is no field. -/
def resolveAuditGuildConfig (override : Fields) : Option Json :=
  parse .audit (.obj ([
    (js "retentionDays", coalesce (override.lookup (js "retentionDays")) env.retentionDays),
    (js "archiveBeforeDelete",
      coalesce (override.lookup (js "archiveBeforeDelete")) env.archiveBeforeDelete),
    (js "archiveFormat", coalesce (override.lookup (js "archiveFormat")) env.archiveFormat),
    (js "denyActionPrefixes", override.lookup (js "denyActionPrefixes"))].filterMap fun entry =>
      entry.2.map fun value => (entry.1, value)))

def resolveNotificationsGuildConfig (override : Fields) : Option Json :=
  parse .notifications (.obj override)

def resolveSecurityConfig (input : Option Json) : Option Json :=
  (coalesce input (some (.obj []))).bind (parse .security)

/-- `settings[key] = next` once the override is valid. -/
def writeBack (module : SettingsModule) (settings : Fields) (next : Json) (since : Nat) : Phase :=
  .writing (assign settings (module.key, next)) since

/-- `updateGuild` of the audit and of the notifications, from the row on. -/
def mergeGuild (module : SettingsModule) (resolve : Fields → Option Json) (row : Option Json)
    (patch : Fields) (since : Nat) : Phase :=
  match row with
  | none => .failed
  | some settings =>
      let current := asObject ((field row module.key).getD .null)
      let next := spread current patch
      match resolve next with
      | none => .failed
      | some _ => writeBack module (asObject settings) (.obj next) since

/-- `update` of the security module, from what `get` reads up to the second read. -/
def mergeSecurity (row : Option Json) (patch : Fields) : Phase :=
  match resolveSecurityConfig parse (field row SettingsModule.security.key) with
  | none => .failed
  | some current =>
      match resolveSecurityConfig parse (some (.obj (spread (asObject current) patch))) with
      | none => .failed
      | some merged => .rereading merged

def read (state : State) (call : Update) : Phase :=
  match call.module with
  | .audit =>
      mergeGuild .audit (resolveAuditGuildConfig parse env) state.row call.patch state.log.length
  | .notifications =>
      mergeGuild .notifications (resolveNotificationsGuildConfig parse) state.row call.patch
        state.log.length
  | .security => mergeSecurity parse state.row call.patch

/-- The next step of a call; the service it waits for may fail. -/
def advance (state : State) (index : Nat) (call : Update) (fails : Bool) : Option State :=
  let goes (phase : Phase) : State := { state with calls := state.calls.set index (call.to phase) }
  match call.phase with
  | .reading => some (goes (if fails then .failed else read parse env state call))
  | .rereading merged =>
      some (goes (if fails then .failed
        else writeBack call.module (asObject (state.row.getD .null)) merged state.log.length))
  | .writing settings _ =>
      match state.row, fails with
      | some _, false =>
          some { goes .completed with
            row := some (.obj settings)
            log := { module := call.module, value := settings.lookup call.module.key } ::
              state.log }
      | _, _ => some (goes .failed)
  | .completed | .failed => none

inductive Action
  | update (module : SettingsModule) (patch : Fields)
  | advance (call : Nat) (fails : Bool)

def step (state : State) : Action → Option State
  | .update module patch =>
      some { state with calls := state.calls ++ [{ module, patch, phase := .reading }] }
  | .advance index fails =>
      match state.calls[index]? with
      | some call => advance parse env state index call fails
      | none => none

end

def Phase.finished : Phase → Bool
  | .completed | .failed => true
  | _ => false

/-- The value of the field by the writes, of which the last one of its module counts. -/
def lastValue (initial : Option Json) (log : List Write) (key : JsString) : Option Json :=
  match log.find? fun write => write.module.key = key with
  | some write => write.value
  | none => field initial key

/-- Once all updates have come to their end, no namespace has lost its last write, and nothing else
has changed. -/
structure NoLostUpdate (initial : Option Json) (state : State) : Prop where
  namespaces : (∀ call ∈ state.calls, call.phase.finished = true) → ∀ module : SettingsModule,
    field state.row module.key = lastValue initial state.log module.key
  others : (∀ call ∈ state.calls, call.phase.finished = true) → ∀ key,
    (∀ module : SettingsModule, module.key ≠ key) → field state.row key = field initial key

/-- Between the last read of an update and its write only updates of its own module have written. -/
def WritesAlone (state : State) (call : Update) (fails : Bool) : Prop :=
  match call.phase with
  | .writing _ since => fails = true ∨
      ∀ write ∈ state.log.take (state.log.length - since), write.module = call.module
  | _ => True

def Unmixed (state : State) : Action → Prop
  | .advance index fails => ∀ call ∈ state.calls[index]?, WritesAlone state call fails
  | .update _ _ => True

/-! What a run without such writes keeps. -/

structure Sound (initial : Option Json) (state : State) : Prop where
  row : ∀ key, field state.row key = lastValue initial state.log key
  waiting : ∀ call ∈ state.calls, ∀ settings since, call.phase = .writing settings since →
    since ≤ state.log.length ∧ ∀ key, key ≠ call.module.key →
      settings.lookup key =
        lastValue initial (state.log.drop (state.log.length - since)) key

variable {parse : SettingsModule → Json → Option Json} {env : AuditEnv} {initial : Option Json}
  {state next : State} {call : Update}

theorem sound_start : Sound initial (State.start initial) where
  row _ := rfl
  waiting := by simp [State.start]

theorem key_ne_proto (module : SettingsModule) : module.key ≠ protoKey := by
  cases module <;> decide

theorem lookup_writeBack (module : SettingsModule) (settings : Fields) (value : Json)
    {key : JsString} (apart : key ≠ module.key) :
    (assign settings (module.key, value)).lookup key = settings.lookup key := by
  rw [assign, if_neg (key_ne_proto module), lookup_insertField, if_neg apart]

theorem lastValue_append {recent log : List Write} {key : JsString}
    (own : ∀ write ∈ recent, write.module.key ≠ key) :
    lastValue initial (recent ++ log) key = lastValue initial log key := by
  have missed : recent.find? (fun write => write.module.key = key) = none := by
    refine List.find?_eq_none.mpr fun write member => ?_
    simpa using own write member
  rw [lastValue, List.find?_append, missed, Option.none_or]
  rfl

/-- What a read leads to: a phase without a write, or one that writes back what it has read. -/
inductive Leads (state : State) (call : Update) : Phase → Prop
  | quiet {phase : Phase} (none : ∀ settings since, phase ≠ .writing settings since) :
      Leads state call phase
  | writes (value : Json) :
      Leads state call
        (writeBack call.module (asObject (state.row.getD .null)) value state.log.length)

theorem leads_failed : Leads state call .failed := .quiet (by simp)

theorem leads_mergeGuild (resolve : Fields → Option Json) :
    Leads state call
      (mergeGuild call.module resolve state.row call.patch state.log.length) := by
  cases isRow : state.row with
  | none => exact leads_failed
  | some settings =>
      have written (value : Json) := @Leads.writes state call value
      rw [isRow] at written
      simp only [mergeGuild]
      split
      · exact leads_failed
      · exact written _

theorem leads_read : Leads state call (read parse env state call) := by
  cases isModule : call.module with
  | audit =>
      simp only [read, isModule]
      rw [← isModule]
      exact leads_mergeGuild _
  | notifications =>
      simp only [read, isModule]
      rw [← isModule]
      exact leads_mergeGuild _
  | security =>
      simp only [read, isModule, mergeSecurity]
      split
      · exact leads_failed
      · split
        · exact leads_failed
        · exact .quiet (by simp)

theorem sound_goes (sound : Sound initial state) {index : Nat} {phase : Phase}
    (leads : Leads state call phase) :
    Sound initial { state with calls := state.calls.set index (call.to phase) } where
  row := sound.row
  waiting other member settings since isWriting := by
    rcases List.mem_or_eq_of_mem_set member with before | rfl
    · exact sound.waiting other before settings since isWriting
    · cases leads with
      | quiet none => exact absurd isWriting (none settings since)
      | writes value =>
          obtain ⟨rfl, rfl⟩ := Phase.writing.inj isWriting
          refine ⟨Nat.le_refl _, fun key apart => ?_⟩
          have isOther : key ≠ call.module.key := apart
          rw [Nat.sub_self, List.drop_zero, lookup_writeBack _ _ _ isOther]
          exact sound.row key

theorem sound_write (sound : Sound initial state) {index : Nat}
    (found : state.calls[index]? = some call) {settings : Fields} {since : Nat}
    (isPhase : call.phase = .writing settings since)
    (own : ∀ write ∈ state.log.take (state.log.length - since), write.module = call.module) :
    Sound initial
      { row := some (.obj settings)
        calls := state.calls.set index (call.to .completed)
        log := { module := call.module, value := settings.lookup call.module.key } ::
          state.log } := by
  obtain ⟨bound, read⟩ :=
    sound.waiting call (List.mem_of_getElem? found) settings since isPhase
  constructor
  · intro key
    by_cases isOwn : key = call.module.key
    · subst key
      simp [lastValue, field, asObject]
    · have current : settings.lookup key = lastValue initial state.log key := by
        rw [read key isOwn]
        conv_rhs => rw [← List.take_append_drop (state.log.length - since) state.log]
        refine (lastValue_append fun write member => ?_).symm
        rw [own write member]
        exact Ne.symm isOwn
      have later : lastValue initial
          ([{ module := call.module, value := settings.lookup call.module.key }] ++ state.log)
          key = lastValue initial state.log key := by
        refine lastValue_append fun write member => ?_
        rw [List.mem_singleton.mp member]
        exact Ne.symm isOwn
      exact current.trans later.symm
  · intro other member otherSettings otherSince isWriting
    rcases List.mem_or_eq_of_mem_set member with before | rfl
    · obtain ⟨otherBound, otherRead⟩ :=
        sound.waiting other before otherSettings otherSince isWriting
      refine ⟨Nat.le_succ_of_le otherBound, fun key apart => ?_⟩
      rw [otherRead key apart, List.length_cons, Nat.succ_sub otherBound, List.drop_succ_cons]
    · cases isWriting

theorem sound_step {action : Action} (sound : Sound initial state)
    (unmixed : Unmixed state action) (taken : step parse env state action = some next) :
    Sound initial next := by
  cases action with
  | update module patch =>
      obtain rfl := Option.some.inj taken
      refine ⟨sound.row, ?_⟩
      intro other member settings since isWriting
      rcases List.mem_append.mp member with before | isNew
      · exact sound.waiting other before settings since isWriting
      · rw [List.mem_singleton.mp isNew] at isWriting
        cases isWriting
  | advance index fails =>
      simp only [step] at taken
      split at taken
      · rename_i call found
        have alone : WritesAlone state call fails := unmixed call found
        unfold advance at taken
        split at taken
        · obtain rfl := Option.some.inj taken
          refine sound_goes sound ?_
          split
          · exact leads_failed
          · exact leads_read
        · rename_i merged isPhase
          obtain rfl := Option.some.inj taken
          refine sound_goes sound ?_
          split
          · exact leads_failed
          · exact .writes merged
        · rename_i settings since isPhase
          rw [WritesAlone, isPhase] at alone
          split at taken
          · obtain rfl := Option.some.inj taken
            rcases alone with lost | own
            · cases lost
            · exact sound_write sound found isPhase own
          · obtain rfl := Option.some.inj taken
            exact sound_goes sound leads_failed
        · cases taken
        · cases taken
      · cases taken

theorem noLostUpdate_of_sound (sound : Sound initial state) : NoLostUpdate initial state where
  namespaces _ module := sound.row module.key
  others _ key apart := by
    have unwritten : lastValue initial (state.log ++ []) key = lastValue initial [] key :=
      lastValue_append fun write _ => apart write.module
    rw [List.append_nil] at unwritten
    exact (sound.row key).trans unwritten

/-- No update is lost where no other module writes between a read and its write. -/
theorem noLostUpdate_of_unmixed (parse : SettingsModule → Json → Option Json) (env : AuditEnv)
    (initial : Option Json) (actions : List Action)
    (guarded : Guarded (step parse env) Unmixed (State.start initial) actions) :
    Always (step parse env) (NoLostUpdate initial) (State.start initial) actions := by
  have sound : Always (step parse env) (Sound initial) (State.start initial) actions :=
    always_of_guarded (step parse env)
      (fun state action next sound unmixed taken => sound_step sound unmixed taken) sound_start
      guarded
  exact sound.mono _ fun state sound => noLostUpdate_of_sound sound

instance (state : State) (call : Update) (fails : Bool) :
    Decidable (WritesAlone state call fails) := by
  unfold WritesAlone
  split <;> infer_instance

instance (state : State) (action : Action) : Decidable (Unmixed state action) := by
  cases action <;> unfold Unmixed <;> infer_instance

/-! The audit and the notifications of one guild are configured. -/

def sampleEnv : AuditEnv :=
  { retentionDays := none, archiveBeforeDelete := none, archiveFormat := none }

def csvFormat : Fields := [(js "archiveFormat", .str (js "csv"))]

def announce : Fields := [(js "announceChannelId", .str (js "c"))]

/-- What the schemas make of these two overrides; nothing else is asked of them. -/
def sampleParse : SettingsModule → Json → Option Json
  | .audit, _ =>
      some (.obj [(js "retentionDays", .num (.ofDigits [3, 6, 5] 3)),
        (js "archiveBeforeDelete", .bool true), (js "archiveFormat", .str (js "csv")),
        (js "denyActionPrefixes", .arr [])])
  | .notifications, _ =>
      some (.obj [(js "enabledChannels", .arr [.str (js "DISCORD_CHANNEL")]),
        (js "announceChannelId", .str (js "c")), (js "staffChannelId", .null),
        (js "quietHours", .obj [(js "enabled", .bool false),
          (js "startHour", .num (.ofDigits [2, 3] 2)),
          (js "endHour", .num (.ofDigits [7] 1)), (js "timezone", .str (js "Europe/Lisbon"))]),
        (js "digest", .obj [(js "enabled", .bool false), (js "cron", .str (js "0 9 * * *"))])])
  | .security, _ => none

def sampleUpdates : List Action := [.update .audit csvFormat, .update .notifications announce]

theorem noLostUpdate_one_by_one :
    Always (step sampleParse sampleEnv) (NoLostUpdate (some (.obj [])))
      (State.start (some (.obj [])))
      (sampleUpdates ++
        [.advance 0 false, .advance 0 false, .advance 1 false, .advance 1 false]) :=
  noLostUpdate_of_unmixed sampleParse sampleEnv (some (.obj [])) _ (by decide +kernel)

def keepsNamespaces (initial : Option Json) (state : State) : Bool :=
  !(state.calls.all fun call => call.phase.finished) ||
    [SettingsModule.audit, .notifications, .security].all fun module =>
      field state.row module.key = lastValue initial state.log module.key

theorem keepsNamespaces_of_noLostUpdate (initial : Option Json) (state : State)
    (kept : NoLostUpdate initial state) : keepsNamespaces initial state = true := by
  rw [keepsNamespaces, Bool.or_eq_true]
  cases ended : state.calls.all fun call => call.phase.finished with
  | false => exact .inl rfl
  | true =>
      refine .inr (List.all_eq_true.mpr fun module _ => ?_)
      exact decide_eq_true (kept.namespaces (List.all_eq_true.mp ended) module)

/-- Both updates read the empty settings, and the second write drops what the first one wrote. -/
theorem audit_update_lost :
    ¬ ∀ (parse : SettingsModule → Json → Option Json) (env : AuditEnv) (initial : Option Json)
      (actions : List Action),
      Always (step parse env) (NoLostUpdate initial) (State.start initial) actions := by
  intro all
  refine not_always (step sampleParse sampleEnv) (keepsNamespaces (some (.obj [])))
    (keepsNamespaces_of_noLostUpdate _) ?_
    (all sampleParse sampleEnv (some (.obj [])) (sampleUpdates ++
      [.advance 0 false, .advance 1 false, .advance 0 false, .advance 1 false]))
  decide +kernel

end GuildSettings
