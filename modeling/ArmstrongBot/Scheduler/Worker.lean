import ArmstrongBot.Scheduler.Service

/-! `SchedulerWorker`: an attempt of a job from its pick-up to the verdict of the queue, where the
bookkeeping works. -/

namespace Scheduler

open JsText
open Calendar (Timestamp)

/-- The row after a successful run; `terminalStatusFor` only finds live rows. -/
def ScheduleEntity.completed (now : Timestamp) (row : ScheduleEntity) : ScheduleEntity :=
  { row with
    lastRunAt := some now
    status := if row.isLive ∧ row.type = .once then .completed else row.status }

def ScheduleEntity.failed (row : ScheduleEntity) : ScheduleEntity := { row with status := .failed }

/-- What `process` writes of an attempt: nothing where another one follows. -/
def recordAttempt (schedules : Schedules) (scheduleId : JsString) (succeeds willRetry : Bool)
    (now : Timestamp) : Schedules :=
  if succeeds then schedules.update scheduleId (.completed now) fun _ => ⟨rfl, rfl⟩
  else if willRetry then schedules
  else schedules.update scheduleId .failed fun _ => ⟨rfl, rfl⟩

/-- The `removeOnComplete` of the jobs. -/
def keptCompleted : Nat := 1000

def runJob (state : State) (jobId : JsString) (succeeds : Bool) (now : Timestamp) : State :=
  match JobQueue.withStatus state.queue.jobs jobId .waiting with
  | none => state
  | some job =>
      let attempts := job.data.policy.attempts.toNat
      let jobs :=
        if succeeds then JobQueue.complete keptCompleted state.queue.jobs jobId
        else JobQueue.retry attempts state.queue.jobs jobId
      { schedules := recordAttempt state.schedules job.data.data.scheduleId succeeds
          (job.attemptsMade + 1 < attempts) now
        queue := { state.queue with jobs } }

/-- An attempt of an occurrence of a repeatable, which stays registered. -/
def runRepeatable (state : State) (repeatKey : JsString) (succeeds willRetry : Bool)
    (now : Timestamp) : State :=
  match state.queue.repeatables.find? fun repeatable => repeatable.key = repeatKey with
  | none => state
  | some repeatable =>
      { state with
        schedules := recordAttempt state.schedules repeatable.data.scheduleId succeeds willRetry now }

end Scheduler
