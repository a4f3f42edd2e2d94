import ArmstrongBot.Library.StepMachine
import ArmstrongBot.Scheduler.Pass
import ArmstrongBot.Scheduler.Worker

/-! `pause`, `resume`, `triggerNow` and the purge of a guild, beside the other calls, the passes, and
the workers that run what is in the queue. -/

namespace Scheduler

open JsText StepMachine
open Calendar (Timestamp toISOString)

/-- What is at work on the table and the queue, by what it does next. -/
inductive Operation
  | scheduling (call : Call)
  | reconciling (pass : Pass)
  | pausing (id : JsString) (guildId : Option JsString)
  | pauseUnqueueing (entity : ScheduleEntity)
  | pauseUpdating (entity : ScheduleEntity)
  | paused (entity : ScheduleEntity)
  | resuming (id : JsString) (guildId : Option JsString)
  | resumeEnqueueing (entity : ScheduleEntity)
  | resumeUpdating (entity : ScheduleEntity) (repeatKey : JsString)
  | resumed (entity : ScheduleEntity)
  | triggering (id : JsString) (guildId : Option JsString)
  | triggerAdding (entity : ScheduleEntity)
  | triggered (entity : ScheduleEntity)
  | purging (guildId : JsString)
  | purgeUpdating (guildId : JsString) (affected : List ScheduleEntity)
  | purgeUnqueueing (guildId : JsString) (affected : List ScheduleEntity)
  | purged (guildId : JsString)
  | failed

/-- Whether the step awaits something whose failure is not caught. -/
def Operation.canFail : Operation → Bool
  | .pauseUnqueueing _ => false
  | .purgeUnqueueing _ (schedule :: _) =>
      schedule.type = .once && schedule.bullJobId.any fun id => id ≠ []
  | _ => true

section

variable (services : Services)

/-- What `triggerNow` adds. -/
def immediateJob (entity : ScheduleEntity) (now : Timestamp) : DelayedJob :=
  { data := { jobData entity now with scheduledFor := toISOString now }, delay := 0
    policy := retryPolicy services.global (some entity.maxAttempts) }

/-- The next step; what fails ends it. -/
def operate (listing : Listing) (state : State) (operation : Operation) (input : Input) :
    Option (State × Operation) :=
  match operation with
  | .scheduling call =>
      (advance services state call input).map fun next => (next.1, .scheduling next.2)
  | .reconciling pass =>
      (advancePass services listing state pass input).map fun next => (next.1, .reconciling next.2)
  | .paused _ | .resumed _ | .triggered _ | .purged _ | .failed => none
  | operation =>
      if input.fails && operation.canFail then some (state, .failed)
      else
        match operation with
        | .pausing id guildId =>
            match state.schedules.findById id (some guildId) with
            | none => some (state, .failed)
            | some entity =>
                match entity.type with
                | .recurring => some (state, .pauseUnqueueing entity)
                | .once => some (state, .failed)
        | .pauseUnqueueing entity =>
            let queue := if input.removes then removeFromQueue state.queue entity else state.queue
            some ({ state with queue }, .pauseUpdating entity)
        | .pauseUpdating entity =>
            let schedules := state.schedules.update entity.id .paused fun _ => ⟨rfl, rfl⟩
            some ({ state with schedules }, .paused entity)
        | .resuming id guildId =>
            match state.schedules.findById id (some guildId) with
            | none => some (state, .failed)
            | some entity =>
                if entity.status = .paused then some (state, .resumeEnqueueing entity)
                else some (state, .failed)
        | .resumeEnqueueing entity =>
            let repeatable := repeatableOf services entity input.now
            some ({ state with queue := state.queue.addRecurring repeatable },
              .resumeUpdating entity repeatable.key)
        | .resumeUpdating entity repeatKey =>
            if services.columnsHold (entity.resumed repeatKey) then
              let schedules := state.schedules.update entity.id (.resumed repeatKey)
                fun _ => ⟨rfl, rfl⟩
              some ({ state with schedules }, .resumed entity)
            else some (state, .failed)
        | .triggering id guildId =>
            match state.schedules.findById id (some guildId) with
            | none => some (state, .failed)
            | some entity => some (state, .triggerAdding entity)
        | .triggerAdding entity =>
            -- BullMQ makes the id of the job up
            let jobs := JobQueue.add state.queue.jobs input.id
              (immediateJob services entity input.now)
            some ({ state with queue := { state.queue with jobs } }, .triggered entity)
        | .purging guildId =>
            match state.schedules.findByGuild guildId with
            | [] => some (state, .purgeUnqueueing guildId [])
            | affected => some (state, .purgeUpdating guildId affected)
        | .purgeUpdating guildId affected =>
            let schedules := state.schedules.softDeleteByGuild guildId input.now
            some ({ state with schedules }, .purgeUnqueueing guildId affected)
        | .purgeUnqueueing guildId (schedule :: affected) =>
            let queue := if input.removes then removeFromQueue state.queue schedule else state.queue
            some ({ state with queue }, .purgeUnqueueing guildId affected)
        | .purgeUnqueueing guildId [] => some (state, .purged guildId)
        | _ => none

end

inductive Command
  | schedule (request : Request)
  | pause (id : JsString) (guildId : Option JsString)
  | resume (id : JsString) (guildId : Option JsString)
  | triggerNow (id : JsString) (guildId : Option JsString)
  | purge (guildId : JsString)
  | reconcile

def Command.operation : Command → Operation
  | .schedule request => .scheduling request.call
  | .pause id guildId => .pausing id guildId
  | .resume id guildId => .resuming id guildId
  | .triggerNow id guildId => .triggering id guildId
  | .purge guildId => .purging guildId
  | .reconcile => .reconciling .reading

/-- How far `process` is with an attempt: it calls the handler between the first two, and has
written the row of a run that succeeded in the last one. -/
inductive Phase
  | preparing
  | handling
  | recorded
  deriving DecidableEq

structure Run where
  job : JobQueue.Job JsString DelayedJob
  phase : Phase

def Run.scheduleId (run : Run) : JsString := run.job.data.data.scheduleId

/-- Everything at work at once. What is paused, what is cancelled or purged, and the schedules whose
handler was called in spite of it are noted for the statements. -/
structure Deployment where
  state : State
  operations : List Operation
  runs : List Run
  paused : List JsString
  gone : List JsString
  late : List JsString

def Deployment.start : Deployment :=
  { state := .start, operations := [], runs := [], paused := [], gone := [], late := [] }

inductive Move
  | ask (command : Command)
  | advance (index : Nat) (listing : Listing) (input : Input)
  | drop (index : Nat)
  | fire (repeatKey jobId : JsString)
  | pick (jobId : JsString)
  | handle (index : Nat)
  | record (index : Nat) (now : Timestamp)
  | finish (index : Nat) (succeeds : Bool) (now : Timestamp)
  | breakOff (index : Nat)
  | stall (index : Nat)

/-- A pause ends when the schedule is in the queue again, or its row is active. -/
def pausedBy (paused : List JsString) : Operation → List JsString
  | .paused entity => paused ++ [entity.id]
  | .resumeUpdating entity _ | .resumed entity => paused.filter fun id => id ≠ entity.id
  | _ => paused

def Schedules.deletedOf (schedules : Schedules) (guildId : JsString) : List JsString :=
  (schedules.rows.filter fun row => row.guildId = some guildId ∧ ¬ row.isLive).map ScheduleEntity.id

/-- The schedules that are gone when an operation has come so far. -/
def goneBy (schedules : Schedules) : Operation → List JsString
  | .scheduling (.cancelled entity) => [entity.id]
  | .purged guildId => schedules.deletedOf guildId
  | _ => []

/-- What the queue makes of a failed attempt. -/
def requeue (queue : Queue) (jobId : JsString) : Option Queue :=
  (JobQueue.withStatus queue.jobs jobId .active).map fun job =>
    { queue with jobs := JobQueue.retry job.data.policy.attempts.toNat queue.jobs jobId }

def Run.willRetry (run : Run) : Bool :=
  run.job.attemptsMade + 1 < run.job.data.policy.attempts.toNat

section

variable (services : Services)

def Deployment.step (deployment : Deployment) : Move → Option Deployment
  | .ask command =>
      some { deployment with operations := deployment.operations ++ [command.operation] }
  | .advance index listing input =>
      match deployment.operations[index]? with
      | none => none
      | some operation =>
          (operate services listing deployment.state operation input).map fun next =>
            { deployment with
              state := next.1
              operations := deployment.operations.set index next.2
              paused := pausedBy deployment.paused next.2
              gone := deployment.gone ++ goneBy next.1.schedules next.2 }
  -- the process is gone
  | .drop index =>
      some { deployment with operations := deployment.operations.eraseIdx index }
  -- an occurrence is due, and from then on a job like any other
  | .fire repeatKey jobId =>
      (deployment.state.queue.repeatables.find? fun repeatable => repeatable.key = repeatKey).map
        fun repeatable =>
          let job := { data := repeatable.data, delay := 0, policy := repeatable.policy }
          let queue := { deployment.state.queue with
            jobs := JobQueue.add deployment.state.queue.jobs jobId job }
          { deployment with state := { deployment.state with queue } }
  | .pick jobId =>
      (JobQueue.withStatus deployment.state.queue.jobs jobId .waiting).map fun job =>
        let queue := { deployment.state.queue with
          jobs := JobQueue.start deployment.state.queue.jobs jobId }
        { deployment with
          state := { deployment.state with queue }
          runs := deployment.runs ++ [{ job, phase := .preparing }] }
  | .handle index =>
      (deployment.runs[index]?.filter fun run => run.phase = .preparing).map fun run =>
        { deployment with
          runs := deployment.runs.set index { run with phase := .handling }
          late := deployment.late ++
            if run.scheduleId ∈ deployment.paused ++ deployment.gone then [run.scheduleId] else [] }
  | .record index now =>
      (deployment.runs[index]?.filter fun run => run.phase = .handling).map fun run =>
        let schedules := recordAttempt deployment.state.schedules run.scheduleId true false now
        { deployment with
          state := { deployment.state with schedules }
          runs := deployment.runs.set index { run with phase := .recorded } }
  | .finish index true _ =>
      (deployment.runs[index]?.filter fun run => run.phase = .recorded).map fun run =>
        let queue := { deployment.state.queue with
          jobs := JobQueue.complete keptCompleted deployment.state.queue.jobs run.job.id }
        { deployment with
          state := { deployment.state with queue }
          runs := deployment.runs.eraseIdx index }
  | .finish index false now =>
      deployment.runs[index]?.bind fun run =>
        (requeue deployment.state.queue run.job.id).map fun queue =>
          let schedules :=
            recordAttempt deployment.state.schedules run.scheduleId false run.willRetry now
          { deployment with state := { schedules, queue }, runs := deployment.runs.eraseIdx index }
  -- what is not caught: before the handler is called, and in the catch block
  | .breakOff index =>
      deployment.runs[index]?.bind fun run =>
        (requeue deployment.state.queue run.job.id).map fun queue =>
          { deployment with
            state := { deployment.state with queue }
            runs := deployment.runs.eraseIdx index }
  -- the worker is gone, and another one may take the job
  | .stall index =>
      deployment.runs[index]?.map fun run =>
        let queue := { deployment.state.queue with
          jobs := JobQueue.stall deployment.state.queue.jobs run.job.id }
        { deployment with
          state := { deployment.state with queue }
          runs := deployment.runs.eraseIdx index }

/-- An attempt from its pick-up to the verdict of the queue. -/
def attempt (index : Nat) (jobId : JsString) (succeeds : Bool) (now : Timestamp) : List Move :=
  [.pick jobId, .handle index] ++ (if succeeds then [.record index now] else []) ++
    [.finish index succeeds now]

/-- With nothing between its steps an attempt does what `runJob` says. -/
theorem attempt_runJob {deployment : Deployment} {jobId : JsString}
    {job : JobQueue.Job JsString DelayedJob}
    (distinct : (JobQueue.ids deployment.state.queue.jobs).Nodup)
    (found : JobQueue.withStatus deployment.state.queue.jobs jobId .waiting = some job)
    (succeeds : Bool) (now : Timestamp) :
    ∃ next, run (Deployment.step services) deployment
        (attempt deployment.runs.length jobId succeeds now) = some next ∧
      next.state = runJob deployment.state jobId succeeds now ∧ next.runs = deployment.runs := by
  obtain ⟨isJob, rfl, _⟩ := JobQueue.withStatus_some found
  have active := JobQueue.withStatus_start distinct isJob rfl
  let late := deployment.late ++
    if job.data.data.scheduleId ∈ deployment.paused ++ deployment.gone then
      [job.data.data.scheduleId] else []
  have dropped (last : Run) :
      (deployment.runs ++ [last]).eraseIdx deployment.runs.length = deployment.runs := by
    rw [List.eraseIdx_append_of_length_le (Nat.le_refl _), Nat.sub_self]
    exact List.append_nil _
  refine ⟨{ deployment with state := runJob deployment.state job.id succeeds now, late }, ?_, rfl,
    rfl⟩
  cases succeeds with
  | true =>
      simp [run, attempt, Deployment.step, found, runJob, Run.scheduleId, Option.filter_some,
        recordAttempt, JobQueue.complete_start, dropped, late]
  | false =>
      simp [run, attempt, Deployment.step, found, runJob, Run.scheduleId, Option.filter_some,
        requeue, active, Run.willRetry, JobQueue.retry_start, dropped, late]

end

/-! What a step of an operation does. -/

inductive OperationEffect (services : Services) (listing : Listing) (state : State)
    (input : Input) : Operation → State → Operation → Prop
  | failed {operation : Operation} :
      OperationEffect services listing state input operation state .failed
  | scheduled {call later : Call} {next : State} :
      advance services state call input = some (next, later) →
      OperationEffect services listing state input (.scheduling call) next (.scheduling later)
  | reconciled {pass later : Pass} {next : State} :
      PassEffect services listing state input pass next later →
      OperationEffect services listing state input (.reconciling pass) next (.reconciling later)
  | pauseFound {id : JsString} {guildId : Option JsString} {entity : ScheduleEntity} :
      state.schedules.findById id (some guildId) = some entity → entity.type = .recurring →
      OperationEffect services listing state input (.pausing id guildId) state
        (.pauseUnqueueing entity)
  | pauseUnqueued {entity : ScheduleEntity} :
      OperationEffect services listing state input (.pauseUnqueueing entity)
        { state with
          queue := if input.removes then removeFromQueue state.queue entity else state.queue }
        (.pauseUpdating entity)
  | pauseUpdated {entity : ScheduleEntity} : input.fails = false →
      OperationEffect services listing state input (.pauseUpdating entity)
        { state with
          schedules := state.schedules.update entity.id .paused fun _ => ⟨rfl, rfl⟩ }
        (.paused entity)
  | resumeFound {id : JsString} {guildId : Option JsString} {entity : ScheduleEntity} :
      state.schedules.findById id (some guildId) = some entity → entity.status = .paused →
      OperationEffect services listing state input (.resuming id guildId) state
        (.resumeEnqueueing entity)
  | resumeEnqueued {entity : ScheduleEntity} :
      OperationEffect services listing state input (.resumeEnqueueing entity)
        { state with
          queue := state.queue.addRecurring (repeatableOf services entity input.now) }
        (.resumeUpdating entity (repeatableOf services entity input.now).key)
  | resumeUpdated {entity : ScheduleEntity} {repeatKey : JsString} :
      OperationEffect services listing state input (.resumeUpdating entity repeatKey)
        { state with
          schedules := state.schedules.update entity.id (.resumed repeatKey)
            fun _ => ⟨rfl, rfl⟩ }
        (.resumed entity)
  | triggerFound {id : JsString} {guildId : Option JsString} {entity : ScheduleEntity} :
      input.fails = false → state.schedules.findById id (some guildId) = some entity →
      OperationEffect services listing state input (.triggering id guildId) state
        (.triggerAdding entity)
  | triggerAdded {entity : ScheduleEntity} :
      OperationEffect services listing state input (.triggerAdding entity)
        { state with
          queue := { state.queue with
            jobs := JobQueue.add state.queue.jobs input.id
              (immediateJob services entity input.now) } }
        (.triggered entity)
  | purgeRead {guildId : JsString} {affected : List ScheduleEntity} :
      OperationEffect services listing state input (.purging guildId) state
        (.purgeUpdating guildId affected)
  | purgeReadNone {guildId : JsString} :
      OperationEffect services listing state input (.purging guildId) state
        (.purgeUnqueueing guildId [])
  | purgeUpdated {guildId : JsString} {affected : List ScheduleEntity} :
      OperationEffect services listing state input (.purgeUpdating guildId affected)
        { state with schedules := state.schedules.softDeleteByGuild guildId input.now }
        (.purgeUnqueueing guildId affected)
  | purgeUnqueued {guildId : JsString} {schedule : ScheduleEntity}
      {affected : List ScheduleEntity} :
      OperationEffect services listing state input
        (.purgeUnqueueing guildId (schedule :: affected))
        { state with
          queue := if input.removes then removeFromQueue state.queue schedule else state.queue }
        (.purgeUnqueueing guildId affected)
  | purgeReturned {guildId : JsString} : input.fails = false →
      OperationEffect services listing state input (.purgeUnqueueing guildId []) state
        (.purged guildId)

theorem operate_effect {services : Services} {listing : Listing} {state next : State}
    {operation later : Operation} {input : Input}
    (taken : operate services listing state operation input = some (next, later)) :
    OperationEffect services listing state input operation next later := by
  cases fails : input.fails && operation.canFail with
  | true =>
      cases operation <;> simp only [operate, fails, if_true, reduceCtorEq] at taken
      case scheduling call =>
          obtain ⟨_, isNext, same⟩ := Option.map_eq_some_iff.mp taken
          cases same
          exact .scheduled isNext
      case reconciling pass =>
          obtain ⟨_, isNext, same⟩ := Option.map_eq_some_iff.mp taken
          cases same
          exact .reconciled (advancePass_effect isNext)
      all_goals
        cases taken
        exact .failed
  | false =>
      cases operation <;>
        simp only [operate, fails, Bool.false_eq_true, if_false, reduceCtorEq] at taken
      case scheduling call =>
          obtain ⟨_, isNext, same⟩ := Option.map_eq_some_iff.mp taken
          cases same
          exact .scheduled isNext
      case reconciling pass =>
          obtain ⟨_, isNext, same⟩ := Option.map_eq_some_iff.mp taken
          cases same
          exact .reconciled (advancePass_effect isNext)
      case pausing id guildId =>
          split at taken
          · cases taken
            exact .failed
          · rename_i entity found
            split at taken <;> cases taken
            · rename_i isRecurring
              exact .pauseFound found isRecurring
            · exact .failed
      case pauseUnqueueing entity =>
          cases taken
          exact .pauseUnqueued
      case pauseUpdating entity =>
          cases taken
          exact .pauseUpdated (by simpa [Operation.canFail] using fails)
      case resuming id guildId =>
          split at taken
          · cases taken
            exact .failed
          · rename_i entity found
            split at taken <;> cases taken
            · rename_i isPaused
              exact .resumeFound found isPaused
            · exact .failed
      case resumeEnqueueing entity =>
          cases taken
          exact .resumeEnqueued
      case resumeUpdating entity repeatKey =>
          split at taken <;> cases taken
          · exact .resumeUpdated
          · exact .failed
      case triggering id guildId =>
          split at taken <;> cases taken
          · exact .failed
          · rename_i found
            exact .triggerFound (by simpa [Operation.canFail] using fails) found
      case triggerAdding entity =>
          cases taken
          exact .triggerAdded
      case purging guildId =>
          split at taken <;> cases taken
          · exact .purgeReadNone
          · exact .purgeRead
      case purgeUpdating guildId affected =>
          cases taken
          exact .purgeUpdated
      case purgeUnqueueing guildId affected =>
          cases affected with
          | nil =>
              cases taken
              exact .purgeReturned (by simpa [Operation.canFail] using fails)
          | cons schedule affected =>
              cases taken
              exact .purgeUnqueued

end Scheduler
