import ArmstrongBot.Library.JobQueue
import ArmstrongBot.Library.Json
import ArmstrongBot.Scheduler.Domain

/-! `SchedulerQueue`: the delayed jobs of one-shot schedules, and the repeatables. -/

namespace Scheduler

open JsText JsJson
open Calendar (Timestamp)

structure SchedulerJobData where
  scheduleId : JsString
  kind : JsString
  guildId : Option JsString
  payload : Json
  scheduledFor : JsString

structure DelayedJob where
  data : SchedulerJobData
  delay : Int
  policy : RetryPolicy

inductive RepeatOptions
  | cron (pattern timezone : JsString)
  | every (milliseconds : Int)
  deriving DecidableEq

structure Repeatable where
  key : JsString
  name : JsString
  data : SchedulerJobData
  repeats : RepeatOptions
  policy : RetryPolicy

/-- What BullMQ decides: which custom job ids it accepts, and the key of a repeatable by its name,
job id and options. -/
structure BullMQ where
  acceptsId : JsString → Bool
  repeatKey : JsString → JsString → RepeatOptions → JsString

structure Queue where
  jobs : List (JobQueue.Job JsString DelayedJob)
  repeatables : List Repeatable

namespace Queue

def empty : Queue := { jobs := [], repeatables := [] }

/-- A job that a worker holds cannot be removed. -/
def removeJob (queue : Queue) (jobId : JsString) : Queue :=
  { queue with jobs := queue.jobs.filter fun job => ¬ (job.id = jobId ∧ job.status ≠ .active) }

def removeRepeatable (queue : Queue) (repeatKey : JsString) : Queue :=
  { queue with repeatables := queue.repeatables.filter fun repeatable => repeatable.key ≠ repeatKey }

/-- The `add` of `addOnce`, which removes the job of that id before. -/
def add (bull : BullMQ) (queue : Queue) (jobId : JsString) (job : DelayedJob) : Option Queue :=
  if bull.acceptsId jobId then some { queue with jobs := JobQueue.add queue.jobs jobId job }
  else none

/-- A repeatable takes the place of one with its key. -/
def addRecurring (queue : Queue) (repeatable : Repeatable) : Queue :=
  { queue with
    repeatables := (queue.removeRepeatable repeatable.key).repeatables ++ [repeatable] }

end Queue

end Scheduler
