import ArmstrongBot.Scheduler.Schedules
import ArmstrongBot.Scheduler.Queue

/-! `SchedulerService`: calls of `scheduleOnce`, `scheduleRecurring` and `cancel` that advance from
await to await. -/

namespace Scheduler

open JsText JsJson
open Calendar (Timestamp toISOString)

structure ScheduleOnceInput where
  guildId : Option JsString
  kind : JsString
  payload : Json
  runAt : Option Timestamp
  delayMs : Option Int
  idempotencyKey : Option JsString
  deferrableInMaintenance : Option Bool
  maxAttempts : Option Int

structure ScheduleRecurringInput where
  guildId : Option JsString
  kind : JsString
  payload : Json
  cron : Option JsString
  everyMs : Option Int
  timezone : Option JsString
  idempotencyKey : JsString
  deferrableInMaintenance : Option Bool
  maxAttempts : Option Int

/-- What the calls use: the packages, the configuration, and which rows the columns of the table
can hold, by their lengths and ranges. -/
structure Services where
  parser : CronParser
  bull : BullMQ
  sha256Hex : JsString → JsString
  columnsHold : ScheduleEntity → Bool
  global : SchedulerGlobalConfig
  forGuild : Option JsString → SchedulerGuildConfig

def attemptsAllowed (maxAttempts : Option Int) : Bool :=
  maxAttempts.all fun attempts => 1 ≤ attempts && attempts ≤ 20

/-- `scheduleOnceSchema`. -/
def ScheduleOnceInput.isValid (input : ScheduleOnceInput) : Bool :=
  input.kind ≠ [] && input.delayMs.all (fun delay => 0 ≤ delay) && input.idempotencyKey ≠ some [] &&
    attemptsAllowed input.maxAttempts && (input.runAt.isNone != input.delayMs.isNone)

/-- `scheduleRecurringSchema`. -/
def ScheduleRecurringInput.isValid (parser : CronParser) (input : ScheduleRecurringInput) : Bool :=
  input.kind ≠ [] && input.cron ≠ some [] && input.everyMs.all (fun every => 1000 ≤ every) &&
    input.timezone ≠ some [] && input.idempotencyKey ≠ [] && attemptsAllowed input.maxAttempts &&
    (input.cron.isNone != input.everyMs.isNone) &&
    input.cron.all fun cron => parser.isValidCron cron (input.timezone.getD (js "UTC"))

structure CreateScheduleInput where
  guildId : Option JsString
  kind : JsString
  type : ScheduleType
  status : ScheduleStatus
  payload : Json
  idempotencyKey : Option JsString
  cron : Option JsString
  everyMs : Option Int
  timezone : JsString
  nextRunAt : Option Timestamp
  deferrable : Bool
  maxAttempts : Int

def CreateScheduleInput.row (data : CreateScheduleInput) (id : JsString) : ScheduleEntity :=
  { id, guildId := data.guildId, kind := data.kind, type := data.type, status := data.status
    payload := data.payload, idempotencyKey := data.idempotencyKey, cron := data.cron
    everyMs := data.everyMs, timezone := data.timezone, nextRunAt := data.nextRunAt
    lastRunAt := none, deferrable := data.deferrable, maxAttempts := data.maxAttempts
    bullJobId := none, deletedAt := none }

section

variable (services : Services)

def ScheduleOnceInput.row (input : ScheduleOnceInput) (now : Timestamp) : CreateScheduleInput :=
  let guildConfig := services.forGuild input.guildId
  let deferrable := input.deferrableInMaintenance.getD true
  { guildId := input.guildId, kind := input.kind, type := .once, status := .pending
    payload := input.payload, idempotencyKey := input.idempotencyKey, cron := none, everyMs := none
    timezone := guildConfig.timezone
    nextRunAt := some (resolveAgainstMaintenance services.parser
      (input.runAt.getD (now + input.delayMs.getD 0)) deferrable guildConfig).1
    deferrable, maxAttempts := input.maxAttempts.getD services.global.defaultMaxAttempts }

def ScheduleRecurringInput.row (input : ScheduleRecurringInput) (now : Timestamp) :
    CreateScheduleInput :=
  let timezone := input.timezone.getD (services.forGuild input.guildId).timezone
  { guildId := input.guildId, kind := input.kind, type := .recurring, status := .active
    payload := input.payload, idempotencyKey := some input.idempotencyKey, cron := input.cron
    everyMs := input.everyMs, timezone
    nextRunAt := computeNextRun services.parser input.cron input.everyMs timezone now
    deferrable := input.deferrableInMaintenance.getD true
    maxAttempts := input.maxAttempts.getD services.global.defaultMaxAttempts }

/-- The job id of a one-shot schedule: of its key, or of the row where it has none. -/
def jobIdOf (entity : ScheduleEntity) : JsString :=
  match entity.idempotencyKey.filter fun key => key ≠ [] with
  | some key => deriveIdempotencyKey services.sha256Hex entity.guildId entity.kind (some key) none
  | none => entity.id

def jobData (entity : ScheduleEntity) (now : Timestamp) : SchedulerJobData :=
  { scheduleId := entity.id, kind := entity.kind, guildId := entity.guildId
    payload := entity.payload, scheduledFor := toISOString (entity.nextRunAt.getD now) }

def delayedJob (entity : ScheduleEntity) (now : Timestamp) : DelayedJob :=
  { data := jobData entity now, delay := max 0 (entity.nextRunAt.getD now - now)
    policy := retryPolicy services.global (some entity.maxAttempts) }

def repeatsOf (entity : ScheduleEntity) : RepeatOptions :=
  match entity.cron.filter fun cron => cron ≠ [] with
  | some cron => .cron cron entity.timezone
  | none => .every (entity.everyMs.getD 60000)

/-- What `enqueueRecurring` registers. -/
def repeatableOf (entity : ScheduleEntity) (now : Timestamp) : Repeatable :=
  { key := services.bull.repeatKey entity.kind entity.id (repeatsOf entity), name := entity.kind
    data := jobData entity now, repeats := repeatsOf entity
    policy := retryPolicy services.global (some entity.maxAttempts) }

end

/-- A call, by what it does next. A row is taken out of the queue and soft-deleted to make room for
another one, or for good. -/
inductive Call
  | preparingOnce (input : ScheduleOnceInput)
  | preparingRecurring (input : ScheduleRecurringInput)
  | finding (data : CreateScheduleInput) (idempotencyKey : JsString)
  | requiring (id : JsString) (guildId : Option JsString)
  | unqueueing (existing : ScheduleEntity) (data : Option CreateScheduleInput)
  | softDeleting (existing : ScheduleEntity) (data : Option CreateScheduleInput)
  | creating (data : CreateScheduleInput)
  | clearing (entity : ScheduleEntity)
  | adding (entity : ScheduleEntity)
  | recording (entity : ScheduleEntity) (bullJobId : JsString)
  | emitting (entity : ScheduleEntity)
  | emittingCancelled (entity : ScheduleEntity)
  | scheduled (entity : ScheduleEntity)
  | cancelled (entity : ScheduleEntity)
  | failed

structure State where
  schedules : Schedules
  queue : Queue

def State.start : State := { schedules := .empty, queue := .empty }

/-- What a step may depend on: an id that the database makes up, the time, whether what is awaited
fails, and whether a removal from the queue does, which is caught. -/
structure Input where
  id : JsString
  now : Timestamp
  fails : Bool
  removes : Bool

def removeFromQueue (queue : Queue) (entity : ScheduleEntity) : Queue :=
  match entity.bullJobId.filter fun id => id ≠ [] with
  | none => queue
  | some bullJobId =>
      match entity.type with
      | .recurring => queue.removeRepeatable bullJobId
      | .once => queue.removeJob bullJobId

/-- Whether a schedule gives way to a new one of its key: of the one-shot schedules only those that
are pending look for one to replace. -/
def givesWay (data : CreateScheduleInput) (existing : ScheduleEntity) : Bool :=
  match data.type with
  | .once => existing.status = .pending
  | .recurring => true

/-- Whether the step awaits something whose failure is not caught. -/
def Call.canFail : Call → Bool
  | .unqueueing existing _ => existing.type = .once && existing.bullJobId.any fun id => id ≠ []
  | _ => true

section

variable (services : Services)

/-- The next step of a call; what fails ends it. The events at its end are one step. -/
def advance (state : State) (call : Call) (input : Input) : Option (State × Call) :=
  match call with
  | .scheduled _ | .cancelled _ | .failed => none
  | call =>
      if input.fails && call.canFail then some (state, .failed)
      else
        match call with
        | .preparingOnce request =>
            if request.isValid then
              let data := request.row services input.now
              match request.idempotencyKey.filter fun key => key ≠ [] with
              | some key => some (state, .finding data key)
              | none => some (state, .creating data)
            else some (state, .failed)
        | .preparingRecurring request =>
            if request.isValid services.parser then
              some (state, .finding (request.row services input.now) request.idempotencyKey)
            else some (state, .failed)
        | .finding data idempotencyKey =>
            match (state.schedules.findByDedup data.guildId data.kind idempotencyKey).filter
                (givesWay data) with
            | some existing => some (state, .unqueueing existing (some data))
            | none => some (state, .creating data)
        | .requiring id guildId =>
            match state.schedules.findById id (some guildId) with
            | some existing => some (state, .unqueueing existing none)
            | none => some (state, .failed)
        | .unqueueing existing data =>
            let queue := if input.removes then removeFromQueue state.queue existing else state.queue
            some ({ state with queue }, .softDeleting existing data)
        | .softDeleting existing data =>
            let next := { state with schedules := state.schedules.softDelete existing.id input.now }
            match data with
            | some data => some (next, .creating data)
            | none => some (next, .emittingCancelled existing)
        | .creating data =>
            let entity := data.row input.id
            match if services.columnsHold entity then state.schedules.create entity else none with
            | none => some (state, .failed)
            | some schedules =>
                match entity.type with
                | .once => some ({ state with schedules }, .clearing entity)
                | .recurring => some ({ state with schedules }, .adding entity)
        | .clearing entity =>
            let queue := if input.removes then state.queue.removeJob (jobIdOf services entity)
              else state.queue
            some ({ state with queue }, .adding entity)
        | .adding entity =>
            match entity.type with
            | .once =>
                match state.queue.add services.bull (jobIdOf services entity)
                    (delayedJob services entity input.now) with
                | some queue =>
                    some ({ state with queue }, .recording entity (jobIdOf services entity))
                | none => some (state, .failed)
            | .recurring =>
                let repeatable := repeatableOf services entity input.now
                some ({ state with queue := state.queue.addRecurring repeatable },
                  .recording entity repeatable.key)
        | .recording entity bullJobId =>
            if services.columnsHold (entity.withJob bullJobId) then
              some ({ state with schedules := state.schedules.setBullJobId entity.id bullJobId },
                .emitting entity)
            else some (state, .failed)
        | .emitting entity => some (state, .scheduled entity)
        | .emittingCancelled entity => some (state, .cancelled entity)
        | _ => none

inductive Request
  | scheduleOnce (input : ScheduleOnceInput)
  | scheduleRecurring (input : ScheduleRecurringInput)
  | cancel (id : JsString) (guildId : Option JsString)

def Request.call : Request → Call
  | .scheduleOnce input => .preparingOnce input
  | .scheduleRecurring input => .preparingRecurring input
  | .cancel id guildId => .requiring id guildId

def settle : Nat → State → Call → (Nat → Input) → State × Call
  | 0, state, call, _ => (state, call)
  | steps + 1, state, call, inputs =>
      match advance services state call (inputs 0) with
      | some (next, later) => settle steps next later fun index => inputs (index + 1)
      | none => (state, call)

/-- The steps of the longest call. -/
def callSteps : Nat := 9

def perform (state : State) (request : Request) (inputs : Nat → Input) : State × Call :=
  settle services callSteps state request.call inputs

inductive Effect (state : State) (input : Input) : Call → State → Call → Prop
  | failed {call : Call} : Effect state input call state .failed
  | preparedOnce {request : ScheduleOnceInput} {key : JsString} : request.isValid = true →
      (request.idempotencyKey.filter fun key => key ≠ []) = some key →
      Effect state input (.preparingOnce request) state
        (.finding (request.row services input.now) key)
  | preparedUnkeyed {request : ScheduleOnceInput} : request.isValid = true →
      (request.idempotencyKey.filter fun key => key ≠ []) = none →
      Effect state input (.preparingOnce request) state (.creating (request.row services input.now))
  | preparedRecurring {request : ScheduleRecurringInput} : request.isValid services.parser = true →
      Effect state input (.preparingRecurring request) state
        (.finding (request.row services input.now) request.idempotencyKey)
  | found {data : CreateScheduleInput} {key : JsString} {existing : ScheduleEntity} :
      (state.schedules.findByDedup data.guildId data.kind key).filter (givesWay data) =
        some existing →
      Effect state input (.finding data key) state (.unqueueing existing (some data))
  | missed {data : CreateScheduleInput} {key : JsString} :
      (state.schedules.findByDedup data.guildId data.kind key).filter (givesWay data) = none →
      Effect state input (.finding data key) state (.creating data)
  | required {id : JsString} {guildId : Option JsString} {existing : ScheduleEntity} :
      state.schedules.findById id (some guildId) = some existing →
      Effect state input (.requiring id guildId) state (.unqueueing existing none)
  | unqueued {existing : ScheduleEntity} {data : Option CreateScheduleInput} :
      input.removes = true →
      Effect state input (.unqueueing existing data)
        { state with queue := removeFromQueue state.queue existing } (.softDeleting existing data)
  | kept {existing : ScheduleEntity} {data : Option CreateScheduleInput} : input.removes = false →
      Effect state input (.unqueueing existing data) state (.softDeleting existing data)
  | softDeleted {existing : ScheduleEntity} {data : CreateScheduleInput} :
      Effect state input (.softDeleting existing (some data))
        { state with schedules := state.schedules.softDelete existing.id input.now }
        (.creating data)
  | cancelled {existing : ScheduleEntity} :
      Effect state input (.softDeleting existing none)
        { state with schedules := state.schedules.softDelete existing.id input.now }
        (.emittingCancelled existing)
  | createdOnce {data : CreateScheduleInput} {schedules : Schedules} :
      state.schedules.create (data.row input.id) = some schedules → data.type = .once →
      Effect state input (.creating data) { state with schedules } (.clearing (data.row input.id))
  | createdRecurring {data : CreateScheduleInput} {schedules : Schedules} :
      state.schedules.create (data.row input.id) = some schedules → data.type = .recurring →
      Effect state input (.creating data) { state with schedules } (.adding (data.row input.id))
  | cleared {entity : ScheduleEntity} : input.removes = true →
      Effect state input (.clearing entity)
        { state with queue := state.queue.removeJob (jobIdOf services entity) } (.adding entity)
  | uncleared {entity : ScheduleEntity} : input.removes = false →
      Effect state input (.clearing entity) state (.adding entity)
  | added {entity : ScheduleEntity} {queue : Queue} : entity.type = .once →
      state.queue.add services.bull (jobIdOf services entity)
        (delayedJob services entity input.now) = some queue →
      Effect state input (.adding entity) { state with queue }
        (.recording entity (jobIdOf services entity))
  | addedRecurring {entity : ScheduleEntity} : entity.type = .recurring →
      Effect state input (.adding entity)
        { state with queue := state.queue.addRecurring (repeatableOf services entity input.now) }
        (.recording entity (repeatableOf services entity input.now).key)
  | recorded {entity : ScheduleEntity} {bullJobId : JsString} :
      services.columnsHold (entity.withJob bullJobId) = true →
      Effect state input (.recording entity bullJobId)
        { state with schedules := state.schedules.setBullJobId entity.id bullJobId }
        (.emitting entity)
  | emitted {entity : ScheduleEntity} :
      Effect state input (.emitting entity) state (.scheduled entity)
  | emittedCancelled {existing : ScheduleEntity} :
      Effect state input (.emittingCancelled existing) state (.cancelled existing)

end

theorem advance_effect {services : Services} {state next : State} {call later : Call}
    {input : Input} (taken : advance services state call input = some (next, later)) :
    Effect services state input call next later := by
  cases fails : input.fails && call.canFail with
  | true =>
      cases call <;> simp only [advance, fails, if_true, reduceCtorEq] at taken <;>
        cases taken <;> exact .failed
  | false =>
      cases call <;>
        simp only [advance, fails, Bool.false_eq_true, if_false, reduceCtorEq] at taken
      case preparingOnce request =>
          split at taken
          · rename_i valid
            split at taken <;> cases taken
            · rename_i isKey
              exact .preparedOnce valid isKey
            · rename_i noKey
              exact .preparedUnkeyed valid noKey
          · cases taken
            exact .failed
      case preparingRecurring request =>
          split at taken <;> cases taken
          · rename_i valid
            exact .preparedRecurring valid
          · exact .failed
      case finding data key =>
          split at taken <;> cases taken
          · rename_i found
            exact .found found
          · rename_i missed
            exact .missed missed
      case requiring id guildId =>
          split at taken <;> cases taken
          · rename_i required
            exact .required required
          · exact .failed
      case unqueueing existing data =>
          cases taken
          split
          · rename_i removes
            exact .unqueued removes
          · rename_i kept
            exact .kept (Bool.eq_false_iff.mpr kept)
      case softDeleting existing data =>
          split at taken <;> cases taken
          · exact .softDeleted
          · exact .cancelled
      case creating data =>
          split at taken
          · cases taken
            exact .failed
          · rename_i schedules created
            have inserted : state.schedules.create (data.row input.id) = some schedules :=
              (Option.ite_none_right_eq_some.mp created).2
            split at taken <;> cases taken
            · rename_i isType
              exact .createdOnce inserted isType
            · rename_i isType
              exact .createdRecurring inserted isType
      case clearing entity =>
          cases taken
          split
          · rename_i removes
            exact .cleared removes
          · rename_i kept
            exact .uncleared (Bool.eq_false_iff.mpr kept)
      case adding entity =>
          split at taken
          · rename_i isType
            split at taken <;> cases taken
            · rename_i added
              exact .added isType added
            · exact .failed
          · rename_i isType
            cases taken
            exact .addedRecurring isType
      case recording entity bullJobId =>
          split at taken <;> cases taken
          · rename_i holds
            exact .recorded holds
          · exact .failed
      case emitting entity =>
          cases taken
          exact .emitted
      case emittingCancelled entity =>
          cases taken
          exact .emittedCancelled

end Scheduler
