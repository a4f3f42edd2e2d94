import ArmstrongBot.Events.Envelope

/-! `SchedulerLifecycleEmitter`: what the scheduler publishes about its jobs. -/

namespace Scheduler

open JsText JsNumber JsJson Events
open Calendar (Timestamp toISOString)

inductive ScheduleStatus
  | pending
  | active
  | paused
  | completed
  | cancelled
  | failed
  deriving DecidableEq

def ScheduleStatus.text : ScheduleStatus → JsString
  | .pending => js "pending"
  | .active => js "active"
  | .paused => js "paused"
  | .completed => js "completed"
  | .cancelled => js "cancelled"
  | .failed => js "failed"

inductive SchedulerEvent
  | scheduled
  | started
  | completed
  | failed
  | retried
  | deadLettered
  | cancelled
  | deferred
  deriving DecidableEq

def SchedulerEvent.eventName : SchedulerEvent → JsString
  | .scheduled => js "scheduler.job.scheduled"
  | .started => js "scheduler.job.started"
  | .completed => js "scheduler.job.completed"
  | .failed => js "scheduler.job.failed"
  | .retried => js "scheduler.job.retried"
  | .deadLettered => js "scheduler.job.dead_lettered"
  | .cancelled => js "scheduler.job.cancelled"
  | .deferred => js "scheduler.job.deferred"

structure LifecycleError where
  code : JsString
  message : JsString

structure LifecycleParams where
  jobId : JsString
  kind : JsString
  guildId : Option JsString
  status : ScheduleStatus
  attempt : Number
  scheduledFor : Timestamp
  traceId : JsString
  error : Option LifecycleError

def lifecyclePayload (params : LifecycleParams) (now : Timestamp) : Json :=
  .obj ([(js "jobId", .str params.jobId), (js "kind", .str params.kind),
    (js "guildId", (params.guildId.map Json.str).getD .null),
    (js "status", .str params.status.text), (js "attempt", .num params.attempt),
    (js "scheduledFor", .str (toISOString params.scheduledFor)),
    (js "occurredAt", .str (toISOString now)), (js "traceId", .str params.traceId)] ++
    match params.error with
    | none => []
    | some error => [(js "error", .obj [(js "code", .str error.code),
        (js "message", .str error.message)])])

def lifecycleKey (event : SchedulerEvent) (params : LifecycleParams) : JsString :=
  event.eventName ++ js ":" ++ params.jobId ++ js ":" ++ numberText params.attempt

def lifecycleOptions (event : SchedulerEvent) (params : LifecycleParams) : PublishOptions :=
  { PublishOptions.empty with
    guildId := params.guildId
    actor := some { type := .job, id := js "scheduler", username := none }
    idempotencyKey := some (lifecycleKey event params) }

/-- The envelope that `emit` has the bus publish. -/
def emit (event : SchedulerEvent) (params : LifecycleParams) (id : JsString) (now : Timestamp)
    (context : CorrelationContext) : EventEnvelope :=
  buildEnvelope id now context event.eventName (lifecyclePayload params now)
    (lifecycleOptions event params)

end Scheduler
