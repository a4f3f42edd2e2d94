import ArmstrongBot.Scheduler.Control
import ArmstrongBot.Scheduler.OneShots

/-! What may still bring a schedule to run, and what the steps of operations do to that. -/

namespace Scheduler

open JsText
open Calendar (Timestamp)

/-- No handler is called for a schedule that is paused, cancelled or purged. -/
def Quiet (deployment : Deployment) : Prop := deployment.late = []

/-- A job that no worker is to pick up again: it is done, or in its last attempt. -/
def isSpent (job : JobQueue.Job JsString DelayedJob) : Bool :=
  match job.status with
  | .completed | .failed => true
  | .active => job.data.policy.attempts.toNat ≤ job.attemptsMade + 1
  | .waiting => false

/-- A pass is to put the schedule back when it comes to its row. -/
def unmatched (id : JsString) (active : List ScheduleEntity)
    (byScheduleId : JsMap JsString RepeatableSummary) : Bool :=
  active.any fun row =>
    row.id = id && (byScheduleId.get id).all (hasDrifted row.cron row.timezone)

def Pass.enqueues (id : JsString) : Pass → Bool
  | .listing active => active.any fun row => row.id = id
  | .visiting active byScheduleId | .recording _ _ active byScheduleId =>
      unmatched id active byScheduleId
  | .enqueueing schedule active byScheduleId =>
      schedule.id = id || unmatched id active byScheduleId
  | _ => false

/-- What was read of the schedule before is to bring it into the queue. -/
def Operation.enqueues (id : JsString) : Operation → Bool
  | .scheduling call => call.enqueues.map ScheduleEntity.id = some id
  | .reconciling pass => pass.enqueues id
  | .triggerAdding entity => entity.id = id
  | _ => false

def Operation.resumes : Operation → Option JsString
  | .resumeEnqueueing entity => some entity.id
  | _ => none

/-- Nothing is left from which a handler run of the schedule could come. -/
structure Quiesced (deployment : Deployment) (id : JsString) : Prop where
  jobs : ∀ job ∈ deployment.state.queue.jobs, job.data.data.scheduleId ≠ id ∨ isSpent job = true
  repeatables : ∀ repeatable ∈ deployment.state.queue.repeatables, repeatable.data.scheduleId ≠ id
  runs : ∀ run ∈ deployment.runs, run.scheduleId ≠ id ∨ run.phase ≠ .preparing
  operations : ∀ operation ∈ deployment.operations, operation.enqueues id = false

instance (deployment : Deployment) (id : JsString) : Decidable (Quiesced deployment id) :=
  decidable_of_iff
    ((∀ job ∈ deployment.state.queue.jobs, job.data.data.scheduleId ≠ id ∨ isSpent job = true) ∧
      (∀ repeatable ∈ deployment.state.queue.repeatables, repeatable.data.scheduleId ≠ id) ∧
      (∀ run ∈ deployment.runs, run.scheduleId ≠ id ∨ run.phase ≠ .preparing) ∧
      ∀ operation ∈ deployment.operations, operation.enqueues id = false) (by
    constructor
    · rintro ⟨jobs, repeatables, runs, operations⟩
      exact ⟨jobs, repeatables, runs, operations⟩
    · intro quiesced
      exact ⟨quiesced.jobs, quiesced.repeatables, quiesced.runs, quiesced.operations⟩)

/-- A pause, a cancellation and a purge return when their schedules are quiesced, and what is
paused is not triggered. -/
def Deployment.Settles (deployment : Deployment) : Operation → Prop
  | .pauseUpdating entity => Quiesced deployment entity.id
  | .scheduling (.emittingCancelled entity) => Quiesced deployment entity.id ∧
      ∀ operation ∈ deployment.operations, operation.resumes ≠ some entity.id
  | .purgeUnqueueing guildId [] => ∀ id ∈ deployment.state.schedules.deletedOf guildId,
      Quiesced deployment id ∧ ∀ operation ∈ deployment.operations, operation.resumes ≠ some id
  | .triggering id guildId => id ∉ deployment.paused ∨
      deployment.state.schedules.findById id (some guildId) = none
  | _ => True

/-- And no worker dies with a job of them. -/
def SettlesFirst (deployment : Deployment) : Move → Prop
  | .advance index _ input => ∀ operation ∈ deployment.operations[index]?,
      input.fails = true ∨ deployment.Settles operation
  | .stall index => ∀ run ∈ deployment.runs[index]?, ∀ job ∈ deployment.state.queue.jobs,
      job.id ≠ run.job.id ∨
        job.data.data.scheduleId ∉ deployment.paused ++ deployment.gone
  | _ => True

instance (deployment : Deployment) : DecidablePred deployment.Settles := fun operation => by
  unfold Deployment.Settles
  split <;> infer_instance

instance (deployment : Deployment) : DecidablePred (SettlesFirst deployment) := fun move => by
  unfold SettlesFirst
  split <;> infer_instance

/-! What becomes of the rows. -/

/-- No row comes to life, and none becomes active but the one that is revived. -/
structure Fading (schedules next : Schedules) (revived : Option JsString) : Prop where
  known : schedules.ids ⊆ next.ids
  rows : ∀ row ∈ next.rows, row.id ∉ schedules.ids ∨ ∃ before ∈ schedules.rows,
    row.id = before.id ∧ row.type = before.type ∧ (row.isLive = true → before.isLive = true) ∧
      (row.status = .active → before.status = .active ∨ revived = some row.id)

section Rows

variable {schedules next : Schedules} {revived : Option JsString} {id : JsString}

theorem Fading.refl (schedules : Schedules) : Fading schedules schedules revived where
  known := List.Subset.refl _
  rows := fun row member => .inr ⟨row, member, rfl, rfl, fun isLive => isLive, .inl⟩

theorem fading_written (selects : ScheduleEntity → Prop) [DecidablePred selects]
    (change : ScheduleEntity → ScheduleEntity)
    (written : next.rows = schedules.rows.map fun row => if selects row then change row else row)
    (same : ∀ row, (change row).id = row.id ∧ (change row).type = row.type)
    (stays : ∀ row, (change row).isLive = true → row.isLive = true)
    (calm : ∀ row, selects row → (change row).status = .active →
      row.status = .active ∨ revived = some row.id) :
    Fading schedules next revived where
  known := by
    rw [Schedules.ids, Schedules.ids, written, List.map_map,
      Schedules.comp_written fun row => (same row).1]
    exact List.Subset.refl _
  rows := by
    intro row member
    rw [written] at member
    obtain ⟨before, isBefore, rfl⟩ := List.mem_map.mp member
    refine .inr ⟨before, isBefore, ?_⟩
    split
    · rename_i selected
      rw [(same before).1]
      exact ⟨rfl, (same before).2, stays before, calm before selected⟩
    · exact ⟨rfl, rfl, fun isLive => isLive, .inl⟩

theorem fading_created {row : ScheduleEntity} (created : schedules.create row = some next) :
    Fading schedules next revived := by
  obtain ⟨admits, isNext⟩ := Schedules.create_some created
  refine ⟨?_, ?_⟩
  · rw [Schedules.ids, Schedules.ids, isNext, List.map_append]
    exact List.subset_append_left _ _
  · intro other member
    rw [isNext] at member
    rcases List.mem_append.mp member with before | isNew
    · exact .inr ⟨other, before, rfl, rfl, fun isLive => isLive, .inl⟩
    · rw [List.mem_singleton.mp isNew]
      exact .inl admits.1

theorem fading_softDelete (schedules : Schedules) (id : JsString) (now : Timestamp) :
    Fading schedules (schedules.softDelete id now) revived :=
  fading_written (fun row => row.id = id) (.cancelled now) rfl (fun _ => ⟨rfl, rfl⟩)
    (fun _ isLive => by cases isLive) (fun _ _ isActive => by cases isActive)

theorem fading_setBullJobId (schedules : Schedules) (id bullJobId : JsString) :
    Fading schedules (schedules.setBullJobId id bullJobId) revived :=
  fading_written (fun row => row.id = id) (.withJob bullJobId) rfl (fun _ => ⟨rfl, rfl⟩)
    (fun _ isLive => isLive) (fun _ _ => .inl)

theorem fading_recordAttempt (schedules : Schedules) (id : JsString) (succeeds willRetry : Bool)
    (now : Timestamp) :
    Fading schedules (recordAttempt schedules id succeeds willRetry now) revived := by
  unfold recordAttempt
  split
  · refine fading_written (fun row => row.id = id) (.completed now) rfl (fun _ => ⟨rfl, rfl⟩)
      (fun _ isLive => isLive) fun row _ isActive => .inl ?_
    simp only [ScheduleEntity.completed] at isActive
    split at isActive
    · cases isActive
    · exact isActive
  · split
    · exact .refl _
    · exact fading_written (fun row => row.id = id) .failed rfl (fun _ => ⟨rfl, rfl⟩)
        (fun _ isLive => isLive) (fun _ _ isActive => by cases isActive)

theorem Fading.inactive (fading : Fading schedules next revived) (known : id ∈ schedules.ids)
    (inactive : ∀ row ∈ dbActive schedules, row.id ≠ id) (sleeps : revived ≠ some id) :
    ∀ row ∈ dbActive next, row.id ≠ id := by
  rintro row member rfl
  obtain ⟨isRow, isType, isLive, isActive⟩ := mem_dbActive.mp member
  rcases fading.rows row isRow with unknown | ⟨before, isBefore, sameId, sameType, stays, calm⟩
  · exact unknown known
  · refine inactive before (mem_dbActive.mpr ⟨isBefore, ?_, stays isLive, ?_⟩) sameId.symm
    · rw [← sameType, isType]
    · exact (calm isActive).resolve_right sleeps

theorem Fading.dead (fading : Fading schedules next revived) (known : id ∈ schedules.ids)
    (dead : ∀ row ∈ schedules.rows, row.id = id → row.isLive = false) :
    ∀ row ∈ next.rows, row.id = id → row.isLive = false := by
  rintro row isRow rfl
  rcases fading.rows row isRow with unknown | ⟨before, isBefore, sameId, _, stays, _⟩
  · exact absurd known unknown
  · have gone := dead before isBefore sameId.symm
    exact Bool.eq_false_iff.mpr fun isLive => by rw [stays isLive] at gone; cases gone

end Rows

section Effects

variable {services : Services} {listing : Listing} {state next : State} {input : Input}

/-- The schedule that a resumption has put in the queue, and the one whose row it has written. -/
def Operation.reenqueued : Operation → Option JsString
  | .resumeUpdating entity _ => some entity.id
  | _ => none

def Operation.revived : Operation → Option JsString
  | .resumed entity => some entity.id
  | _ => none

theorem fading_effect {call later : Call} (effect : Effect services state input call next later) :
    Fading state.schedules next.schedules none := by
  cases effect with
  | softDeleted | cancelled => exact fading_softDelete _ _ _
  | createdOnce created | createdRecurring created => exact fading_created created
  | recorded => exact fading_setBullJobId _ _ _
  | _ => exact .refl _

theorem fading_operate {operation later : Operation}
    (effect : OperationEffect services listing state input operation next later) :
    Fading state.schedules next.schedules later.revived := by
  cases effect with
  | scheduled taken => exact fading_effect (advance_effect taken)
  | reconciled effect =>
      cases effect with
      | recorded => exact fading_setBullJobId _ _ _
      | _ => exact .refl _
  | @pauseUpdated entity =>
      exact fading_written (fun row => row.id = entity.id) .paused rfl (fun _ => ⟨rfl, rfl⟩)
        (fun _ isLive => isLive) (fun _ _ isActive => by cases isActive)
  | @resumeUpdated entity repeatKey =>
      exact fading_written (fun row => row.id = entity.id) (.resumed repeatKey) rfl
        (fun _ => ⟨rfl, rfl⟩) (fun _ isLive => isLive)
        (fun _ isRow _ => .inr (congrArg some isRow.symm))
  | @purgeUpdated guildId affected =>
      exact fading_written (fun row => decide (row.guildId = some guildId ∧ row.isLive) = true)
        (.cancelled input.now) rfl (fun _ => ⟨rfl, rfl⟩) (fun _ isLive => by cases isLive)
        (fun _ _ isActive => by cases isActive)
  | _ => exact .refl _

theorem removal_sublist (queue : Queue) (key : JsString) (input : Input) :
    (removal queue key input).jobs.Sublist queue.jobs ∧
      (removal queue key input).repeatables.Sublist queue.repeatables := by
  unfold removal
  split
  · exact ⟨.refl _, List.filter_sublist⟩
  · exact ⟨.refl _, .refl _⟩

/-- What an operation adds to the queue is of the schedule that it was to bring in, or to resume. -/
theorem jobs_operate {operation later : Operation}
    (effect : OperationEffect services listing state input operation next later) :
    next.queue.jobs.Sublist state.queue.jobs ∨ ∃ jobId job,
      next.queue.jobs = JobQueue.add state.queue.jobs jobId job ∧
        operation.enqueues job.data.scheduleId = true := by
  cases effect with
  | scheduled taken =>
      rcases jobs_effect (advance_effect taken) with fewer | ⟨entity, rfl, added⟩
      · exact .inl fewer
      · exact .inr ⟨_, _, added, decide_eq_true rfl⟩
  | reconciled effect =>
      cases effect with
      | drifted | removed => exact .inl (removal_sublist _ _ _).1
      | _ => exact .inl (.refl _)
  | triggerAdded => exact .inr ⟨_, _, rfl, decide_eq_true rfl⟩
  | pauseUnqueued | purgeUnqueued =>
      refine .inl ?_
      split
      · exact (removeFromQueue_sublist _ _).1
      · exact .refl _
  | _ => exact .inl (.refl _)

theorem repeatables_operate {operation later : Operation}
    (effect : OperationEffect services listing state input operation next later) :
    ∀ repeatable ∈ next.queue.repeatables, repeatable ∈ state.queue.repeatables ∨
      operation.enqueues repeatable.data.scheduleId = true ∨
        later.reenqueued = some repeatable.data.scheduleId := by
  intro repeatable member
  cases effect with
  | scheduled taken =>
      rcases effect_repeatables (advance_effect taken) repeatable member with
        before | ⟨entity, rfl, _, rfl⟩
      · exact .inl before
      · exact .inr (.inl (decide_eq_true rfl))
  | reconciled effect =>
      cases effect with
      | drifted | removed => exact .inl ((removal_sublist _ _ _).2.subset member)
      | enqueued =>
          rcases List.mem_append.mp member with before | isNew
          · exact .inl (removeRepeatable_subset _ _ before)
          · rw [List.mem_singleton.mp isNew]
            exact .inr (.inl (Bool.or_eq_true_iff.mpr (.inl (decide_eq_true rfl))))
      | _ => exact .inl member
  | resumeEnqueued =>
      rcases List.mem_append.mp member with before | isNew
      · exact .inl (removeRepeatable_subset _ _ before)
      · rw [List.mem_singleton.mp isNew]
        exact .inr (.inr rfl)
  | pauseUnqueued | purgeUnqueued =>
      split at member
      · exact .inl ((removeFromQueue_subset _ _).2 member)
      · exact .inl member
  | _ => exact .inl member

/-- The rows that a pass goes through are different ones. -/
def Pass.Distinct : Pass → Prop
  | .listing active | .visiting active _ | .enqueueing _ active _ | .recording _ _ active _ =>
      (active.map ScheduleEntity.id).Nodup
  | _ => True

theorem unmatched_iff {id : JsString} {active : List ScheduleEntity}
    {map : JsMap JsString RepeatableSummary} :
    unmatched id active map = true ↔ ∃ row ∈ active, row.id = id ∧
      ∀ existing ∈ map.get id, hasDrifted row.cron row.timezone existing = true := by
  simp [unmatched, Option.all_eq_true]

theorem unmatched_of_delete {id : JsString} {schedule : ScheduleEntity}
    {active : List ScheduleEntity} {map : JsMap JsString RepeatableSummary}
    (distinct : ((schedule :: active).map ScheduleEntity.id).Nodup)
    (later : unmatched id active (map.delete schedule.id) = true) :
    unmatched id (schedule :: active) map = true := by
  obtain ⟨row, isRow, rfl, drifts⟩ := unmatched_iff.mp later
  have apart : schedule.id ≠ row.id := by
    intro same
    have isNew := (List.nodup_cons.mp distinct).1
    rw [same] at isNew
    exact isNew (List.mem_map_of_mem isRow)
  rw [JsMap.get_delete apart] at drifts
  exact unmatched_iff.mpr ⟨row, List.mem_cons_of_mem _ isRow, rfl, drifts⟩

theorem unmatched_head {schedule : ScheduleEntity} {active : List ScheduleEntity}
    {map : JsMap JsString RepeatableSummary}
    (drifts : ∀ existing ∈ map.get schedule.id,
      hasDrifted schedule.cron schedule.timezone existing = true) :
    unmatched schedule.id (schedule :: active) map = true :=
  unmatched_iff.mpr ⟨schedule, List.mem_cons_self, rfl, drifts⟩

theorem unmatched_tail {id : JsString} (schedule : ScheduleEntity) {active : List ScheduleEntity}
    {map : JsMap JsString RepeatableSummary} (later : unmatched id active map = true) :
    unmatched id (schedule :: active) map = true := by
  obtain ⟨row, isRow, facts⟩ := unmatched_iff.mp later
  exact unmatched_iff.mpr ⟨row, List.mem_cons_of_mem _ isRow, facts⟩

theorem enqueues_pass {pass later : Pass} {id : JsString} (distinct : pass.Distinct)
    (effect : PassEffect services listing state input pass next later)
    (enqueues : later.enqueues id = true) :
    pass.enqueues id = true ∨ ∃ row ∈ dbActive state.schedules, row.id = id := by
  cases effect with
  | read =>
      obtain ⟨row, isRow, isId⟩ := List.any_eq_true.mp enqueues
      exact .inr ⟨row, isRow, of_decide_eq_true isId⟩
  | listed =>
      obtain ⟨row, isRow, isId, _⟩ := unmatched_iff.mp enqueues
      exact .inl (List.any_eq_true.mpr ⟨row, isRow, decide_eq_true isId⟩)
  | missed missed =>
      refine .inl ?_
      rcases Bool.or_eq_true_iff.mp enqueues with isId | rest
      · obtain rfl := of_decide_eq_true isId
        exact unmatched_head (by simp [missed])
      · exact unmatched_tail _ rest
  | drifted found drifted =>
      refine .inl ?_
      rcases Bool.or_eq_true_iff.mp enqueues with isId | rest
      · obtain rfl := of_decide_eq_true isId
        exact unmatched_head (by simp [found, drifted])
      · exact unmatched_of_delete distinct rest
  | matched => exact .inl (unmatched_of_delete distinct enqueues)
  | enqueued => exact .inl (Bool.or_eq_true_iff.mpr (.inr enqueues))
  | recorded => exact .inl enqueues
  | _ => cases enqueues

theorem pass_distinct {pass later : Pass} (distinct : pass.Distinct)
    (effect : PassEffect services listing state input pass next later) : later.Distinct := by
  cases effect with
  | read => exact dbActive_ids_nodup _
  | listed | enqueued | recorded => exact distinct
  | missed | drifted | matched => exact (List.nodup_cons.mp distinct).2
  | _ => trivial

/-- What is to be enqueued after a step was so before, is new, or was found in the table. -/
theorem enqueues_operate {operation later : Operation} {id : JsString}
    (distinct : ∀ pass, operation = .reconciling pass → pass.Distinct)
    (effect : OperationEffect services listing state input operation next later)
    (enqueues : later.enqueues id = true) :
    operation.enqueues id = true ∨ id ∉ state.schedules.ids ∨
      (∃ row ∈ dbActive state.schedules, row.id = id) ∨
        input.fails = false ∧ ∃ guildId entity, operation = .triggering id guildId ∧
          state.schedules.findById id (some guildId) = some entity := by
  cases effect with
  | scheduled taken =>
      obtain ⟨entity, isEntity, rfl⟩ := Option.map_eq_some_iff.mp (of_decide_eq_true enqueues)
      rcases (enqueues_effect (advance_effect taken) isEntity).2 with before | unknown
      · exact .inl (decide_eq_true (congrArg (Option.map ScheduleEntity.id) before))
      · exact .inr (.inl unknown)
  | reconciled effect =>
      rcases enqueues_pass (distinct _ rfl) effect enqueues with before | read
      · exact .inl before
      · exact .inr (.inr (.inl read))
  | triggerFound works found =>
      obtain rfl := of_decide_eq_true enqueues
      obtain ⟨_, rfl, _⟩ := Schedules.findById_some found
      exact .inr (.inr (.inr ⟨works, _, _, rfl, found⟩))
  | _ => cases enqueues

theorem resumes_of_reenqueued {operation later : Operation} {id : JsString}
    (effect : OperationEffect services listing state input operation next later)
    (reenqueued : later.reenqueued = some id) : operation.resumes = some id := by
  cases effect with
  | resumeEnqueued => exact reenqueued
  | _ => cases reenqueued

/-- Only what is live is resumed. -/
theorem resumes_operate {operation later : Operation} {id : JsString}
    (effect : OperationEffect services listing state input operation next later)
    (resumes : later.resumes = some id) :
    ∃ row ∈ state.schedules.rows, row.id = id ∧ row.isLive = true := by
  cases effect with
  | resumeFound found =>
      obtain rfl := Option.some.inj resumes
      obtain ⟨isRow, _, isLive⟩ := Schedules.findById_some found
      exact ⟨_, isRow, rfl, isLive⟩
  | _ => cases resumes

/-- What an operation relies on of the rows that it has read. -/
def Operation.Vetted (schedules : Schedules) : Operation → Prop
  | .scheduling (.unqueueing existing _) | .scheduling (.softDeleting existing _) =>
      existing.id ∈ schedules.ids
  | .scheduling (.emittingCancelled existing) => existing.id ∈ schedules.ids ∧
      ∀ row ∈ schedules.rows, row.id = existing.id → row.isLive = false
  | .reconciling pass => pass.Distinct
  | .pauseUnqueueing entity | .pauseUpdating entity => entity.id ∈ schedules.ids
  | _ => True

theorem Operation.Vetted.fading {schedules later : Schedules} {revived : Option JsString}
    {operation : Operation} (vetted : operation.Vetted schedules)
    (fading : Fading schedules later revived) : operation.Vetted later := by
  unfold Operation.Vetted at vetted ⊢
  split at vetted
  · exact fading.known vetted
  · exact fading.known vetted
  · exact ⟨fading.known vetted.1, fading.dead vetted.1 vetted.2⟩
  · exact vetted
  · exact fading.known vetted
  · exact fading.known vetted
  · trivial

theorem vetted_operate {operation later : Operation}
    (vetted : operation.Vetted state.schedules)
    (effect : OperationEffect services listing state input operation next later) :
    later.Vetted next.schedules := by
  cases effect with
  | scheduled taken =>
      cases advance_effect taken with
      | found found =>
          have isRow := (Schedules.findByDedup_some (Option.filter_eq_some_iff.mp found).1).1
          exact List.mem_map_of_mem isRow
      | required found => exact List.mem_map_of_mem (Schedules.findById_some found).1
      | unqueued | kept => exact vetted
      | @cancelled existing =>
          have fading : Fading state.schedules
              (state.schedules.softDelete existing.id input.now) none := fading_softDelete _ _ _
          refine ⟨fading.known vetted, fun row member isId => ?_⟩
          exact Bool.eq_false_iff.mpr fun isLive => not_mem_softDelete member isLive isId
      | _ => trivial
  | reconciled effect => exact pass_distinct vetted effect
  | pauseFound found => exact List.mem_map_of_mem (Schedules.findById_some found).1
  | pauseUnqueued => exact vetted
  | _ => trivial

end Effects

end Scheduler
