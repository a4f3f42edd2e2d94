import Mathlib.Data.Fintype.EquivFin
import ArmstrongBot.Scheduler.Quiescence

/-! When a schedule that is paused, cancelled or purged never runs again. -/

namespace Scheduler

open JsText StepMachine
open Calendar (Timestamp)

/-! What is stopped stays so. -/

/-- A schedule that is paused. -/
structure Halted (deployment : Deployment) (id : JsString) : Prop where
  quiesced : Quiesced deployment id
  known : id ∈ deployment.state.schedules.ids
  inactive : ∀ row ∈ dbActive deployment.state.schedules, row.id ≠ id

/-- A schedule that is cancelled or purged. -/
structure Ended (deployment : Deployment) (id : JsString) : Prop where
  quiesced : Quiesced deployment id
  known : id ∈ deployment.state.schedules.ids
  dead : ∀ row ∈ deployment.state.schedules.rows, row.id = id → row.isLive = false
  unresumed : ∀ operation ∈ deployment.operations, operation.resumes ≠ some id

structure Stopped (deployment : Deployment) : Prop where
  distinct : (JobQueue.ids deployment.state.queue.jobs).Nodup
  vetted : ∀ operation ∈ deployment.operations, operation.Vetted deployment.state.schedules
  paused : ∀ id ∈ deployment.paused, Halted deployment id
  gone : ∀ id ∈ deployment.gone, Ended deployment id
  quiet : Quiet deployment

theorem stopped_start : Stopped .start where
  distinct := List.nodup_nil
  vetted := by simp [Deployment.start]
  paused := by simp [Deployment.start]
  gone := by simp [Deployment.start]
  quiet := rfl

theorem Ended.inactive {deployment : Deployment} {id : JsString} (ended : Ended deployment id) :
    ∀ row ∈ dbActive deployment.state.schedules, row.id ≠ id := by
  intro row member isId
  obtain ⟨isRow, _, isLive, _⟩ := mem_dbActive.mp member
  rw [ended.dead row isRow isId] at isLive
  cases isLive

section Operations

variable {services : Services} {listing : Listing} {deployment : Deployment} {index : Nat}
  {operation later : Operation} {state : State} {input : Input} {id : JsString}

/-- The deployment after a step of an operation. -/
def Deployment.operated (deployment : Deployment) (index : Nat) (state : State)
    (later : Operation) : Deployment :=
  { deployment with
    state
    operations := deployment.operations.set index later
    paused := pausedBy deployment.paused later
    gone := deployment.gone ++ goneBy state.schedules later }

theorem Quiesced.operate (quiesced : Quiesced deployment id)
    (isOperation : operation ∈ deployment.operations)
    (effect : OperationEffect services listing deployment.state input operation state later)
    (unresumed : later.reenqueued ≠ some id) (idle : later.enqueues id = false) :
    Quiesced (deployment.operated index state later) id where
  jobs := by
    intro job member
    have fresh := quiesced.operations operation isOperation
    rcases jobs_operate effect with fewer | ⟨jobId, added, isNext, enqueues⟩
    · exact quiesced.jobs job (fewer.subset member)
    · rw [Deployment.operated, isNext] at member
      rcases JobQueue.mem_add.mp member with before | ⟨_, rfl⟩
      · exact quiesced.jobs job before
      · refine .inl fun same => ?_
        rw [← same, enqueues] at fresh
        cases fresh
  repeatables := by
    rintro repeatable member rfl
    rcases repeatables_operate effect repeatable member with before | enqueues | resumes
    · exact quiesced.repeatables repeatable before rfl
    · rw [quiesced.operations operation isOperation] at enqueues
      cases enqueues
    · exact unresumed resumes
  runs := quiesced.runs
  operations := by
    intro other member
    rcases List.mem_or_eq_of_mem_set member with before | rfl
    · exact quiesced.operations other before
    · exact idle

/-- What is stopped is not brought in again. -/
theorem idle_operate (quiesced : Quiesced deployment id)
    (isOperation : operation ∈ deployment.operations)
    (vetted : operation.Vetted deployment.state.schedules)
    (known : id ∈ deployment.state.schedules.ids)
    (inactive : ∀ row ∈ dbActive deployment.state.schedules, row.id ≠ id)
    (effect : OperationEffect services listing deployment.state input operation state later)
    (untriggered : ∀ guildId, operation = .triggering id guildId → input.fails = false →
      deployment.state.schedules.findById id (some guildId) = none) :
    later.enqueues id = false := by
  refine Bool.eq_false_iff.mpr fun enqueues => ?_
  have distinct : ∀ pass, operation = .reconciling pass → pass.Distinct := by
    rintro pass rfl
    exact vetted
  rcases enqueues_operate distinct effect enqueues with
    before | unknown | ⟨row, isRow, isId⟩ | ⟨works, guildId, entity, isTrigger, found⟩
  · rw [quiesced.operations operation isOperation] at before
    cases before
  · exact unknown known
  · exact inactive row isRow isId
  · rw [untriggered guildId isTrigger works] at found
    cases found

theorem Halted.operate (halted : Halted deployment id)
    (isOperation : operation ∈ deployment.operations)
    (vetted : operation.Vetted deployment.state.schedules)
    (effect : OperationEffect services listing deployment.state input operation state later)
    (unresumed : later.reenqueued ≠ some id) (sleeps : later.revived ≠ some id)
    (untriggered : ∀ guildId, operation = .triggering id guildId → input.fails = false →
      deployment.state.schedules.findById id (some guildId) = none) :
    Halted (deployment.operated index state later) id where
  quiesced := halted.quiesced.operate isOperation effect unresumed
    (idle_operate halted.quiesced isOperation vetted halted.known halted.inactive effect untriggered)
  known := (fading_operate effect).known halted.known
  inactive := (fading_operate effect).inactive halted.known halted.inactive sleeps

theorem Ended.operate (ended : Ended deployment id)
    (isOperation : operation ∈ deployment.operations)
    (vetted : operation.Vetted deployment.state.schedules)
    (effect : OperationEffect services listing deployment.state input operation state later) :
    Ended (deployment.operated index state later) id := by
  have unresumed : later.reenqueued ≠ some id := fun reenqueued =>
    ended.unresumed operation isOperation (resumes_of_reenqueued effect reenqueued)
  have untriggered : ∀ guildId, operation = .triggering id guildId → input.fails = false →
      deployment.state.schedules.findById id (some guildId) = none := by
    intro guildId _ _
    refine Option.eq_none_iff_forall_not_mem.mpr fun entity found => ?_
    obtain ⟨isRow, isId, isLive⟩ := Schedules.findById_some found
    rw [ended.dead entity isRow isId] at isLive
    cases isLive
  refine ⟨ended.quiesced.operate isOperation effect unresumed (idle_operate ended.quiesced
    isOperation vetted ended.known ended.inactive effect untriggered),
    (fading_operate effect).known ended.known, (fading_operate effect).dead ended.known ended.dead,
    fun other member => ?_⟩
  rcases List.mem_or_eq_of_mem_set member with before | rfl
  · exact ended.unresumed other before
  · intro resumes
    obtain ⟨row, isRow, isId, isLive⟩ := resumes_operate effect resumes
    rw [ended.dead row isRow isId] at isLive
    cases isLive

/-- A pause that returns. -/
theorem halted_paused {entity : ScheduleEntity}
    (isOperation : .pauseUpdating entity ∈ deployment.operations)
    (vetted : entity.id ∈ deployment.state.schedules.ids)
    (effect : OperationEffect services listing deployment.state input (.pauseUpdating entity) state
      (.paused entity))
    (quiesced : Quiesced deployment entity.id) :
    Halted (deployment.operated index state (.paused entity)) entity.id where
  quiesced := quiesced.operate isOperation effect (by simp [Operation.reenqueued]) rfl
  known := (fading_operate effect).known vetted
  inactive := by
    cases effect
    rintro row member isId
    obtain ⟨isRow, _, _, isActive⟩ := mem_dbActive.mp member
    obtain ⟨before, _, rfl⟩ := List.mem_map.mp isRow
    split at isActive
    · cases isActive
    · rename_i other
      rw [if_neg other] at isId
      exact other isId

/-- A cancellation or a purge that returns. -/
theorem Quiesced.ended (quiesced : Quiesced deployment id)
    (isOperation : operation ∈ deployment.operations)
    (effect : OperationEffect services listing deployment.state input operation deployment.state
      later)
    (known : id ∈ deployment.state.schedules.ids)
    (dead : ∀ row ∈ deployment.state.schedules.rows, row.id = id → row.isLive = false)
    (unresumed : ∀ operation ∈ deployment.operations, operation.resumes ≠ some id)
    (idle : later.enqueues id = false) (resumesNone : later.resumes = none) :
    Ended (deployment.operated index deployment.state later) id where
  quiesced := quiesced.operate isOperation effect (fun reenqueued =>
    unresumed operation isOperation (resumes_of_reenqueued effect reenqueued)) idle
  known := known
  dead := dead
  unresumed := by
    intro other member
    rcases List.mem_or_eq_of_mem_set member with before | rfl
    · exact unresumed other before
    · rw [resumesNone]
      exact (Option.some_ne_none id).symm

theorem Schedules.mem_deletedOf {schedules : Schedules} {guildId : JsString}
    (member : id ∈ schedules.deletedOf guildId) :
    id ∈ schedules.ids ∧ ∀ row ∈ schedules.rows, row.id = id → row.isLive = false := by
  obtain ⟨deleted, selected, rfl⟩ := List.mem_map.mp member
  obtain ⟨isRow, isDeleted⟩ := List.mem_filter.mp selected
  refine ⟨List.mem_map_of_mem isRow, fun row member isId => ?_⟩
  rw [Schedules.eq_of_id member isRow isId]
  exact Bool.eq_false_iff.mpr (of_decide_eq_true isDeleted).2

theorem works_of_cancelled {services : Services} {state next : State} {call : Call} {input : Input}
    {entity : ScheduleEntity}
    (taken : advance services state call input = some (next, .cancelled entity)) :
    call = .emittingCancelled entity ∧ next = state ∧ input.fails = false := by
  have effect := advance_effect taken
  cases effect
  refine ⟨rfl, rfl, ?_⟩
  cases fails : input.fails with
  | false => rfl
  | true =>
      simp only [advance, fails, Call.canFail, Bool.and_self, if_true] at taken
      cases taken

theorem mem_pausedBy {paused : List JsString} (member : id ∈ pausedBy paused later) :
    (id ∈ paused ∧ later.reenqueued ≠ some id ∧ later.revived ≠ some id) ∨
      ∃ entity, later = .paused entity ∧ entity.id = id := by
  unfold pausedBy at member
  split at member
  · rename_i entity
    rcases List.mem_append.mp member with before | isNew
    · exact .inl ⟨before, by simp [Operation.reenqueued], by simp [Operation.revived]⟩
    · exact .inr ⟨entity, rfl, (List.mem_singleton.mp isNew).symm⟩
  · obtain ⟨before, apart⟩ := List.mem_filter.mp member
    have different := of_decide_eq_true apart
    exact .inl ⟨before, fun same => different (Option.some.inj same).symm,
      by simp [Operation.revived]⟩
  · obtain ⟨before, apart⟩ := List.mem_filter.mp member
    have different := of_decide_eq_true apart
    exact .inl ⟨before, by simp [Operation.reenqueued],
      fun same => different (Option.some.inj same).symm⟩
  · rename_i notEnqueued notResumed
    refine .inl ⟨member, fun same => ?_, fun same => ?_⟩
    · cases later <;> cases same
      exact notEnqueued _ _ rfl
    · cases later <;> cases same
      exact notResumed _ rfl

theorem Stopped.operate (stopped : Stopped deployment)
    (isOperation : operation ∈ deployment.operations)
    (settles : input.fails = true ∨ deployment.Settles operation)
    (effect : OperationEffect services listing deployment.state input operation state later) :
    Stopped (deployment.operated index state later) where
  distinct := by
    rcases jobs_operate effect with fewer | ⟨jobId, added, isNext, _⟩
    · exact stopped.distinct.sublist (fewer.map _)
    · rw [Deployment.operated, isNext]
      exact JobQueue.ids_add_nodup stopped.distinct _ _
  vetted := by
    intro other member
    rcases List.mem_or_eq_of_mem_set member with before | rfl
    · exact (stopped.vetted other before).fading (fading_operate effect)
    · exact vetted_operate (stopped.vetted operation isOperation) effect
  paused := by
    intro id member
    have vetted := stopped.vetted operation isOperation
    rcases mem_pausedBy member with ⟨before, unresumed, sleeps⟩ | ⟨entity, rfl, rfl⟩
    · refine (stopped.paused id before).operate isOperation vetted effect unresumed sleeps ?_
      rintro guildId rfl works
      rw [works] at settles
      exact (settles.resolve_left Bool.false_ne_true).resolve_left (absurd before)
    · have found := effect
      cases found with
      | pauseUpdated works =>
          rw [works] at settles
          exact halted_paused isOperation vetted effect (settles.resolve_left Bool.false_ne_true)
  gone := by
    intro id member
    have vetted := stopped.vetted operation isOperation
    rcases List.mem_append.mp member with before | isNew
    · exact (stopped.gone id before).operate isOperation vetted effect
    · unfold goneBy at isNew
      split at isNew
      · rename_i entity
        obtain rfl := List.mem_singleton.mp isNew
        have found := effect
        cases found with
        | scheduled taken =>
            obtain ⟨rfl, rfl, works⟩ := works_of_cancelled taken
            rw [works] at settles
            obtain ⟨quiesced, unresumed⟩ := settles.resolve_left Bool.false_ne_true
            exact quiesced.ended isOperation effect vetted.1 vetted.2 unresumed rfl rfl
      · rename_i guildId
        have found := effect
        cases found with
        | purgeReturned works =>
            rw [works] at settles
            obtain ⟨quiesced, unresumed⟩ := settles.resolve_left Bool.false_ne_true id isNew
            obtain ⟨known, dead⟩ := Schedules.mem_deletedOf isNew
            exact quiesced.ended isOperation effect known dead unresumed rfl rfl
      · cases isNew
  quiet := stopped.quiet

end Operations

/-! The queue and the workers. -/

section Workers

variable {services : Services} {deployment next : Deployment} {id : JsString}

theorem Command.operation_fresh (command : Command) (id : JsString) (schedules : Schedules) :
    command.operation.enqueues id = false ∧ command.operation.resumes = none ∧
      command.operation.Vetted schedules := by
  cases command with
  | schedule request => cases request <;> exact ⟨rfl, rfl, trivial⟩
  | _ => exact ⟨rfl, rfl, trivial⟩

/-- The steps that are not of an operation. -/
structure Works (deployment next : Deployment) : Prop where
  operations : ∀ operation ∈ next.operations,
    operation ∈ deployment.operations ∨ ∃ command : Command, operation = command.operation
  paused : next.paused = deployment.paused
  gone : next.gone = deployment.gone
  fading : Fading deployment.state.schedules next.state.schedules none
  distinct : (JobQueue.ids next.state.queue.jobs).Nodup
  repeatables : next.state.queue.repeatables = deployment.state.queue.repeatables
  jobs : ∀ id ∈ deployment.paused ++ deployment.gone, ∀ job ∈ next.state.queue.jobs,
    job.data.data.scheduleId ≠ id ∨ isSpent job = true
  runs : ∀ id ∈ deployment.paused ++ deployment.gone, ∀ run ∈ next.runs,
    run.scheduleId ≠ id ∨ run.phase ≠ .preparing
  quiet : Quiet next

theorem Works.quiesced (works : Works deployment next)
    (member : id ∈ deployment.paused ++ deployment.gone) (quiesced : Quiesced deployment id) :
    Quiesced next id where
  jobs := works.jobs id member
  repeatables := by
    rw [works.repeatables]
    exact quiesced.repeatables
  runs := works.runs id member
  operations := by
    intro operation isOperation
    rcases works.operations operation isOperation with before | ⟨command, rfl⟩
    · exact quiesced.operations operation before
    · exact (command.operation_fresh id .empty).1

theorem Works.stopped (works : Works deployment next) (stopped : Stopped deployment) :
    Stopped next where
  distinct := works.distinct
  vetted := by
    intro operation isOperation
    rcases works.operations operation isOperation with before | ⟨command, rfl⟩
    · exact (stopped.vetted operation before).fading works.fading
    · exact (command.operation_fresh [] _).2.2
  paused := by
    intro id member
    rw [works.paused] at member
    have halted := stopped.paused id member
    exact ⟨works.quiesced (List.mem_append_left _ member) halted.quiesced,
      works.fading.known halted.known,
      works.fading.inactive halted.known halted.inactive (Option.some_ne_none id).symm⟩
  gone := by
    intro id member
    rw [works.gone] at member
    have ended := stopped.gone id member
    refine ⟨works.quiesced (List.mem_append_right _ member) ended.quiesced,
      works.fading.known ended.known, works.fading.dead ended.known ended.dead, ?_⟩
    intro operation isOperation
    rcases works.operations operation isOperation with before | ⟨command, rfl⟩
    · exact ended.unresumed operation before
    · rw [(command.operation_fresh id .empty).2.1]
      exact (Option.some_ne_none id).symm
  quiet := works.quiet

theorem Stopped.quiesced (stopped : Stopped deployment)
    (member : id ∈ deployment.paused ++ deployment.gone) : Quiesced deployment id :=
  (List.mem_append.mp member).elim (fun isPaused => (stopped.paused id isPaused).quiesced)
    fun isGone => (stopped.gone id isGone).quiesced

/-- What is in its last attempt does not wait again. -/
theorem requeue_spent {queue after : Queue} {jobId : JsString}
    (distinct : (JobQueue.ids queue.jobs).Nodup) (requeued : requeue queue jobId = some after)
    (spent : ∀ job ∈ queue.jobs, job.data.data.scheduleId ≠ id ∨ isSpent job = true) :
    ∀ job ∈ after.jobs, job.data.data.scheduleId ≠ id ∨ isSpent job = true := by
  obtain ⟨active, found, rfl⟩ := Option.map_eq_some_iff.mp requeued
  obtain ⟨isActive, sameId, status⟩ := JobQueue.withStatus_some found
  intro job member
  rcases JobQueue.mem_change member with ⟨before, _⟩ | ⟨before, isBefore, isJob, rfl⟩
  · exact spent job before
  · obtain rfl := JobQueue.eq_of_id distinct isActive isBefore (sameId.trans isJob.symm)
    refine (spent active isActive).imp_right fun isLast => ?_
    have exhausted : ¬ active.attemptsMade + 1 < active.data.policy.attempts.toNat := by
      simpa [isSpent, status] using isLast
    simp [isSpent, exhausted]

theorem ids_requeue {queue after : Queue} {jobId : JsString}
    (requeued : requeue queue jobId = some after) :
    JobQueue.ids after.jobs = JobQueue.ids queue.jobs ∧ after.repeatables = queue.repeatables := by
  obtain ⟨active, _, rfl⟩ := Option.map_eq_some_iff.mp requeued
  exact ⟨JobQueue.ids_retry _ _ _, rfl⟩

/-- A step that only takes runs away. -/
theorem Stopped.runs_subset (stopped : Stopped deployment) (fewer : next.runs ⊆ deployment.runs) :
    ∀ id ∈ deployment.paused ++ deployment.gone, ∀ run ∈ next.runs,
      run.scheduleId ≠ id ∨ run.phase ≠ .preparing :=
  fun _ member run isRun => (stopped.quiesced member).runs run (fewer isRun)

theorem Stopped.works (stopped : Stopped deployment) {move : Move}
    (settles : SettlesFirst deployment move)
    (other : ∀ index listing input, move ≠ .advance index listing input)
    (taken : deployment.step services move = some next) : Works deployment next := by
  have jobsStay : ∀ id ∈ deployment.paused ++ deployment.gone,
      ∀ job ∈ deployment.state.queue.jobs, job.data.data.scheduleId ≠ id ∨ isSpent job = true :=
    fun id member => (stopped.quiesced member).jobs
  have runsStay : ∀ id ∈ deployment.paused ++ deployment.gone, ∀ run ∈ deployment.runs,
      run.scheduleId ≠ id ∨ run.phase ≠ .preparing :=
    fun id member => (stopped.quiesced member).runs
  have unchanged : Works deployment deployment :=
    { operations := fun operation member => .inl member, paused := rfl, gone := rfl
      fading := .refl _, distinct := stopped.distinct, repeatables := rfl, jobs := jobsStay
      runs := runsStay, quiet := stopped.quiet }
  cases move with
  | advance index listing input => exact absurd rfl (other index listing input)
  | ask command =>
      cases taken
      refine { unchanged with operations := fun operation member => ?_ }
      rcases List.mem_append.mp member with before | isNew
      · exact .inl before
      · exact .inr ⟨command, List.mem_singleton.mp isNew⟩
  | drop index =>
      cases taken
      exact { unchanged with
        operations := fun operation member => .inl (List.eraseIdx_subset member) }
  | fire repeatKey jobId =>
      obtain ⟨repeatable, found, rfl⟩ := Option.map_eq_some_iff.mp taken
      refine { unchanged with
        distinct := JobQueue.ids_add_nodup stopped.distinct _ _
        jobs := fun id member job isJob => ?_ }
      rcases JobQueue.mem_add.mp isJob with before | ⟨_, rfl⟩
      · exact jobsStay id member job before
      · exact .inl ((stopped.quiesced member).repeatables repeatable
          (List.mem_of_find?_eq_some found))
  | pick jobId =>
      obtain ⟨waiting, found, rfl⟩ := Option.map_eq_some_iff.mp taken
      obtain ⟨isWaiting, sameId, status⟩ := JobQueue.withStatus_some found
      have apart : ∀ id ∈ deployment.paused ++ deployment.gone,
          waiting.data.data.scheduleId ≠ id := by
        intro id member
        refine (jobsStay id member waiting isWaiting).resolve_right ?_
        simp [isSpent, status]
      refine { unchanged with
        distinct := by
          rw [JobQueue.ids_start]
          exact stopped.distinct
        jobs := fun id member job isJob => ?_
        runs := fun id member run isRun => ?_ }
      · rcases JobQueue.mem_change isJob with ⟨before, _⟩ | ⟨before, isBefore, isPicked, rfl⟩
        · exact jobsStay id member job before
        · obtain rfl := JobQueue.eq_of_id stopped.distinct isWaiting isBefore
            (sameId.trans isPicked.symm)
          exact .inl (apart id member)
      · rcases List.mem_append.mp isRun with before | isNew
        · exact runsStay id member run before
        · rw [List.mem_singleton.mp isNew]
          exact .inl (apart id member)
  | handle index =>
      obtain ⟨run, found, rfl⟩ := Option.map_eq_some_iff.mp taken
      obtain ⟨isRun, isPreparing⟩ := Option.filter_eq_some_iff.mp found
      have apart : run.scheduleId ∉ deployment.paused ++ deployment.gone := fun member =>
        (runsStay _ member run (List.mem_of_getElem? isRun)).elim (absurd rfl)
          (absurd (of_decide_eq_true isPreparing))
      refine { unchanged with
        runs := fun id member other isOther => ?_
        quiet := ?_ }
      · rcases List.mem_or_eq_of_mem_set isOther with before | rfl
        · exact runsStay id member other before
        · exact .inr Phase.noConfusion
      · rw [Quiet, if_neg apart, List.append_nil]
        exact stopped.quiet
  | record index now =>
      obtain ⟨run, found, rfl⟩ := Option.map_eq_some_iff.mp taken
      refine { unchanged with
        fading := fading_recordAttempt _ run.scheduleId true false now
        runs := fun id member other isOther => ?_ }
      rcases List.mem_or_eq_of_mem_set isOther with before | rfl
      · exact runsStay id member other before
      · exact .inr Phase.noConfusion
  | finish index succeeds now =>
      cases succeeds with
      | true =>
          obtain ⟨run, found, rfl⟩ := Option.map_eq_some_iff.mp taken
          refine { unchanged with
            distinct := JobQueue.ids_complete_nodup stopped.distinct _
            jobs := fun id member job isJob => ?_
            runs := stopped.runs_subset List.eraseIdx_subset }
          rcases JobQueue.mem_complete isJob with ⟨before, _⟩ | ⟨_, isCompleted⟩
          · exact jobsStay id member job before
          · exact .inr (by simp [isSpent, isCompleted])
      | false =>
          obtain ⟨run, _, finished⟩ := Option.bind_eq_some_iff.mp taken
          obtain ⟨queue, requeued, rfl⟩ := Option.map_eq_some_iff.mp finished
          exact { unchanged with
            fading := fading_recordAttempt _ run.scheduleId false run.willRetry now
            distinct := (ids_requeue requeued).1 ▸ stopped.distinct
            repeatables := (ids_requeue requeued).2
            jobs := fun id member => requeue_spent stopped.distinct requeued (jobsStay id member)
            runs := stopped.runs_subset List.eraseIdx_subset }
  | breakOff index =>
      obtain ⟨run, _, broken⟩ := Option.bind_eq_some_iff.mp taken
      obtain ⟨queue, requeued, rfl⟩ := Option.map_eq_some_iff.mp broken
      exact { unchanged with
        distinct := (ids_requeue requeued).1 ▸ stopped.distinct
        repeatables := (ids_requeue requeued).2
        jobs := fun id member => requeue_spent stopped.distinct requeued (jobsStay id member)
        runs := stopped.runs_subset List.eraseIdx_subset }
  | stall index =>
      obtain ⟨run, isRun, rfl⟩ := Option.map_eq_some_iff.mp taken
      refine { unchanged with
        distinct := by
          rw [JobQueue.ids_stall]
          exact stopped.distinct
        jobs := fun id member job isJob => ?_
        runs := stopped.runs_subset List.eraseIdx_subset }
      rcases JobQueue.mem_change isJob with ⟨before, _⟩ | ⟨before, isBefore, isHeld, rfl⟩
      · exact jobsStay id member job before
      · have apart := (settles run isRun before isBefore).resolve_left (absurd isHeld)
        refine .inl ?_
        rintro rfl
        exact apart member

theorem Stopped.step (stopped : Stopped deployment) {move : Move}
    (settles : SettlesFirst deployment move)
    (taken : deployment.step services move = some next) : Stopped next := by
  by_cases advances : ∃ index listing input, move = .advance index listing input
  · obtain ⟨index, listing, input, rfl⟩ := advances
    simp only [Deployment.step] at taken
    split at taken
    · cases taken
    · rename_i operation isOperation
      obtain ⟨advanced, isNext, rfl⟩ := Option.map_eq_some_iff.mp taken
      exact stopped.operate (List.mem_of_getElem? isOperation) (settles operation isOperation)
        (operate_effect isNext)
  · refine (stopped.works settles (fun index listing input isAdvance => ?_) taken).stopped stopped
    exact advances ⟨index, listing, input, isAdvance⟩

end Workers

/-! What is left of a schedule when it is stopped. -/

section Left

variable (services : Services) {deployment : Deployment} {id : JsString}

theorem late_of_picked {index : Nat} {held : Run} (isHeld : deployment.runs[index]? = some held)
    (isPreparing : held.phase = .preparing)
    (stopped : held.scheduleId ∈ deployment.paused ++ deployment.gone) :
    ∃ next, deployment.step services (.handle index) = some next ∧ ¬ Quiet next := by
  have kept : (deployment.runs[index]?.filter fun run => run.phase = .preparing) = some held :=
    Option.filter_eq_some_iff.mpr ⟨isHeld, decide_eq_true isPreparing⟩
  simp only [Deployment.step, kept, Option.map_some, if_pos stopped]
  refine ⟨_, rfl, fun quiet => ?_⟩
  exact List.append_ne_nil_of_right_ne_nil _ (List.cons_ne_nil _ _) quiet

theorem late_of_waiting {jobId : JsString} {job : JobQueue.Job JsString DelayedJob}
    (found : JobQueue.withStatus deployment.state.queue.jobs jobId .waiting = some job)
    (stopped : job.data.data.scheduleId ∈ deployment.paused ++ deployment.gone) :
    ∃ next, run (Deployment.step services) deployment
      [.pick jobId, .handle deployment.runs.length] = some next ∧ ¬ Quiet next := by
  have picked : ∃ middle, deployment.step services (.pick jobId) = some middle ∧
      middle.runs[deployment.runs.length]? = some { job, phase := .preparing } ∧
      middle.paused ++ middle.gone = deployment.paused ++ deployment.gone := by
    simp only [Deployment.step, found, Option.map_some]
    exact ⟨_, rfl, List.getElem?_concat_length, rfl⟩
  obtain ⟨middle, taken, isPicked, same⟩ := picked
  obtain ⟨next, handled, isLate⟩ := late_of_picked services isPicked rfl (same ▸ stopped)
  exact ⟨next, (run_cons _).mpr ⟨middle, taken, (run_cons _).mpr ⟨next, handled, rfl⟩⟩, isLate⟩

theorem late_of_repeatable {repeatKey : JsString} {repeatable : Repeatable}
    (found : (deployment.state.queue.repeatables.find? fun repeatable =>
      repeatable.key = repeatKey) = some repeatable)
    (stopped : repeatable.data.scheduleId ∈ deployment.paused ++ deployment.gone) :
    ∃ moves next, run (Deployment.step services) deployment moves = some next ∧ ¬ Quiet next := by
  obtain ⟨jobId, unused⟩ :=
    Infinite.exists_notMem_finset (JobQueue.ids deployment.state.queue.jobs).toFinset
  have waits := JobQueue.withStatus_add (fun retained => unused (List.mem_toFinset.mpr retained))
    ({ data := repeatable.data, delay := 0, policy := repeatable.policy } : DelayedJob)
  have fired : ∃ middle, deployment.step services (.fire repeatKey jobId) = some middle ∧
      middle.state.queue.jobs = JobQueue.add deployment.state.queue.jobs jobId
        { data := repeatable.data, delay := 0, policy := repeatable.policy } ∧
      middle.paused ++ middle.gone = deployment.paused ++ deployment.gone := by
    simp only [Deployment.step, found, Option.map_some]
    exact ⟨_, rfl, rfl, rfl⟩
  obtain ⟨middle, taken, added, same⟩ := fired
  rw [← added] at waits
  obtain ⟨next, later, isLate⟩ := late_of_waiting services waits (same ▸ stopped)
  exact ⟨_, next, (run_cons _).mpr ⟨middle, taken, later⟩, isLate⟩

/-- What is left for a stopped schedule in the queue, or has been picked up, can still run. -/
theorem late_of_left (distinct : (JobQueue.ids deployment.state.queue.jobs).Nodup)
    (keys : (deployment.state.queue.repeatables.map Repeatable.key).Nodup)
    (stopped : id ∈ deployment.paused ++ deployment.gone)
    (left : (∃ job ∈ deployment.state.queue.jobs,
        job.status = .waiting ∧ job.data.data.scheduleId = id) ∨
      (∃ repeatable ∈ deployment.state.queue.repeatables, repeatable.data.scheduleId = id) ∨
        ∃ held ∈ deployment.runs, held.phase = .preparing ∧ held.scheduleId = id) :
    ∃ moves next, run (Deployment.step services) deployment moves = some next ∧ ¬ Quiet next := by
  rcases left with ⟨job, isJob, waits, rfl⟩ | ⟨repeatable, member, rfl⟩ |
    ⟨held, member, isPreparing, rfl⟩
  · cases found : JobQueue.withStatus deployment.state.queue.jobs job.id .waiting with
    | none => exact absurd (decide_eq_true ⟨rfl, waits⟩) (List.find?_eq_none.mp found job isJob)
    | some other =>
        obtain ⟨isOther, sameId, _⟩ := JobQueue.withStatus_some found
        obtain rfl := JobQueue.eq_of_id distinct isOther isJob sameId
        exact ⟨_, late_of_waiting services found stopped⟩
  · cases found : deployment.state.queue.repeatables.find? fun other =>
        other.key = repeatable.key with
    | none => exact absurd (decide_eq_true rfl) (List.find?_eq_none.mp found repeatable member)
    | some other =>
        have sameKey : other.key = repeatable.key := by simpa using List.find?_some found
        obtain rfl := List.inj_on_of_nodup_map keys (List.mem_of_find?_eq_some found) member sameKey
        exact late_of_repeatable services found stopped
  · obtain ⟨index, isHeld⟩ := List.mem_iff_getElem?.mp member
    obtain ⟨next, handled, isLate⟩ := late_of_picked services isHeld isPreparing stopped
    exact ⟨[.handle index], next, (run_cons _).mpr ⟨next, handled, rfl⟩, isLate⟩

end Left

theorem quiet_of_settled (services : Services) (moves : List Move)
    (settled : Guarded (Deployment.step services) SettlesFirst .start moves) :
    Always (Deployment.step services) Quiet .start moves := by
  have sound : ∀ deployment, Stopped deployment → Quiet deployment :=
    fun _ stopped => stopped.quiet
  exact (always_of_guarded (Deployment.step services)
    (fun _ _ _ stopped settles taken => stopped.step settles taken) stopped_start settled).mono _
    sound

def hourly : Command :=
  .schedule (.scheduleRecurring
    { guildId := some (js "g"), kind := js "digest", payload := .obj [], cron := none
      everyMs := some 3600000, timezone := none, idempotencyKey := js "hourly"
      deferrableInMaintenance := none, maxAttempts := none })

/-- Steps of an operation to which nothing fails. -/
def stepsOf (index steps : Nat) (id : String) : List Move :=
  List.replicate steps (.advance index plainListing (working id 0))

/-- A pass finds the schedule in the queue before it is paused, and ends after that. -/
def pausedBetweenRuns : List Move :=
  .ask hourly :: stepsOf 0 6 "s" ++
    [.fire (quotedId (js "s") ++ js "digest::3600000") (js "o"), .pick (js "o"), .handle 0,
      .record 0 0, .finish 0 true 0, .ask .reconcile] ++ stepsOf 1 3 "p" ++
    .ask (.pause (js "s") (some (js "g"))) :: stepsOf 2 3 "q" ++ stepsOf 1 2 "p"

theorem paused_schedule_rests :
    Always (Deployment.step keyedServices) Quiet .start pausedBetweenRuns :=
  quiet_of_settled keyedServices pausedBetweenRuns (by decide +kernel)

/-- What was triggered is still in the queue when the guild is purged. -/
def purgedAfterTrigger : List Move :=
  .ask hourly :: stepsOf 0 6 "s" ++ .ask (.triggerNow (js "s") (some (js "g"))) ::
    stepsOf 1 2 "t" ++ .ask (.purge (js "g")) :: stepsOf 2 4 "u" ++ [.pick (js "t"), .handle 0]

theorem purged_schedule_runs :
    ¬ ∀ (services : Services) (moves : List Move),
      Always (Deployment.step services) Quiet .start moves := by
  intro all
  refine not_always (Deployment.step keyedServices) (fun deployment => deployment.late.isEmpty)
    (fun deployment quiet => ?_) ?_ (all keyedServices purgedAfterTrigger)
  · rw [show deployment.late = [] from quiet]
    rfl
  · decide +kernel

end Scheduler
