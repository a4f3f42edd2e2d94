import ArmstrongBot.Scheduler.Durability

/-! Which runs never leave a pending one-shot schedule without its job. -/

namespace Scheduler

open JsText StepMachine
open Calendar (Timestamp)

/-- The one-shot row that is without its job until the call has made its next steps. -/
def Call.holds : Call → Option JsString
  | .clearing entity | .adding entity | .softDeleting entity _ =>
      if entity.type = .once then some entity.id else none
  | _ => none

/-- The id of the job that a call removes. -/
def Call.removesJob (services : Services) : Call → Option JsString
  | .clearing entity => some (jobIdOf services entity)
  | .unqueueing existing _ =>
      if existing.type = .once then existing.bullJobId.filter fun id => id ≠ [] else none
  | _ => none

/-- The step does not fail while the call holds a row, its job id is taken by BullMQ and by no other
job, and it removes no job of another pending row. -/
structure CarefulCall (services : Services) (state : State) (call : Call) (input : Input) : Prop where
  works : call.holds ≠ none → input.fails = false
  accepted : ∀ entity, call = .adding entity → entity.type = .once →
    services.bull.acceptsId (jobIdOf services entity) = true ∧
      jobIdOf services entity ∉ JobQueue.ids state.queue.jobs
  spares : ∀ jobId ∈ call.removesJob services, ∀ job ∈ state.queue.jobs, job.id = jobId →
    ∀ row ∈ state.schedules.rows, row.isPendingOnce = true → row.id = job.data.data.scheduleId →
      call.evicts = some row.id

/-- The queue is not lost while a one-shot is pending, and no pass ends while a call holds a row. -/
def Careful (services : Services) (installation : Installation) : Incident services.bull → Prop
  | .act (.advance index input) => ∀ call ∈ installation.world.calls[index]?,
      CarefulCall services installation.world.state call input
  | .loseQueue => ∀ row ∈ installation.world.state.schedules.rows, row.isPendingOnce = false
  | .reconcile _ _ => ∀ call ∈ installation.world.calls, call.holds = none
  | _ => True

/-- The schedules that have a job, run or not. -/
def jobOwners (queue : Queue) : List JsString :=
  queue.jobs.map fun job => job.data.data.scheduleId

/-- A pending one-shot has a job that waits, or a call is about to see to it. -/
def Attended (world : World) (id : JsString) : Prop :=
  (∃ job ∈ world.state.queue.jobs, job.status = .waiting ∧ job.data.data.scheduleId = id) ∨
    ∃ call ∈ world.calls, call.holds = some id

structure Backed (world : World) : Prop where
  ids : (JobQueue.ids world.state.queue.jobs).Nodup
  owners : (jobOwners world.state.queue).Nodup
  fresh : ∀ call ∈ world.calls, ∀ entity ∈ call.enqueues, entity.id ∉ jobOwners world.state.queue
  apart : ∀ (first second : Nat) (firstCall secondCall : Call) (entity other : ScheduleEntity),
    world.calls[first]? = some firstCall → world.calls[second]? = some secondCall →
    firstCall.enqueues = some entity → secondCall.enqueues = some other → entity.id = other.id →
    first = second
  attended : ∀ row ∈ world.state.schedules.rows, row.isPendingOnce = true → Attended world row.id

section Rows

/-- A row that is pending after a write was pending before, whatever is written. -/
theorem pending_update {schedules : Schedules} {id : JsString}
    (change : ScheduleEntity → ScheduleEntity) (sameIds : ∀ row, (change row).id = row.id)
    (keeps : ∀ row, (change row).isPendingOnce = true → row.isPendingOnce = true)
    {row : ScheduleEntity}
    (member : row ∈ schedules.rows.map fun row => if row.id = id then change row else row)
    (isPending : row.isPendingOnce = true) :
    ∃ before ∈ schedules.rows, before.isPendingOnce = true ∧ before.id = row.id ∧
      (row.id = id → (change before).isPendingOnce = true) := by
  obtain ⟨before, isBefore, rfl⟩ := List.mem_map.mp member
  split at isPending
  · rename_i sameId
    rw [if_pos sameId]
    exact ⟨before, isBefore, keeps before isPending, (sameIds before).symm, fun _ => isPending⟩
  · rename_i other
    rw [if_neg other]
    exact ⟨before, isBefore, isPending, rfl, fun sameId => absurd sameId other⟩

theorem not_pending_cancelled (now : Timestamp) (row : ScheduleEntity) :
    (row.cancelled now).isPendingOnce = false := by
  simp [ScheduleEntity.isPendingOnce, ScheduleEntity.cancelled, ScheduleEntity.isLive]

theorem not_pending_failed (row : ScheduleEntity) : row.failed.isPendingOnce = false := by
  simp [ScheduleEntity.isPendingOnce, ScheduleEntity.failed]

theorem not_pending_completed (now : Timestamp) (row : ScheduleEntity) :
    (row.completed now).isPendingOnce = false := by
  by_cases ends : row.isLive = true ∧ row.type = .once
  · simp [ScheduleEntity.isPendingOnce, ScheduleEntity.completed, ends]
  · refine Bool.eq_false_iff.mpr fun isPending => ends ?_
    obtain ⟨isLive, isOnce, _⟩ := isPendingOnce_iff.mp isPending
    exact ⟨isLive, isOnce⟩

theorem pending_never {change : ScheduleEntity → ScheduleEntity}
    (never : ∀ row, (change row).isPendingOnce = false) (row : ScheduleEntity)
    (isPending : (change row).isPendingOnce = true) : row.isPendingOnce = true := by
  rw [never] at isPending
  cases isPending

/-- What a run of a schedule writes ends its being pending, or is nothing. -/
theorem pending_recordAttempt {schedules : Schedules} {id : JsString} {succeeds willRetry : Bool}
    {now : Timestamp} {row : ScheduleEntity}
    (member : row ∈ (recordAttempt schedules id succeeds willRetry now).rows)
    (isPending : row.isPendingOnce = true) :
    ∃ before ∈ schedules.rows, before.isPendingOnce = true ∧ before.id = row.id ∧
      (row.id = id → succeeds = false ∧ willRetry = true) := by
  have written : ∀ change : ScheduleEntity → ScheduleEntity,
      (∀ row, (change row).id = row.id) → (∀ row, (change row).isPendingOnce = false) →
      (row ∈ schedules.rows.map fun row => if row.id = id then change row else row) →
      ∃ before ∈ schedules.rows, before.isPendingOnce = true ∧ before.id = row.id ∧ row.id ≠ id := by
    intro change sameIds never member
    obtain ⟨before, isBefore, wasPending, sameId, changed⟩ :=
      pending_update change sameIds (pending_never never) member isPending
    refine ⟨before, isBefore, wasPending, sameId, fun isId => ?_⟩
    have still := changed isId
    rw [never] at still
    cases still
  unfold recordAttempt at member
  split at member
  · obtain ⟨before, isBefore, wasPending, sameId, other⟩ :=
      written (.completed now) (fun _ => rfl) (not_pending_completed now) member
    exact ⟨before, isBefore, wasPending, sameId, fun isId => absurd isId other⟩
  · rename_i fails
    split at member
    · rename_i retries
      exact ⟨row, member, isPending, rfl, fun _ => ⟨Bool.eq_false_iff.mpr fails, retries⟩⟩
    · obtain ⟨before, isBefore, wasPending, sameId, other⟩ :=
        written .failed (fun _ => rfl) not_pending_failed member
      exact ⟨before, isBefore, wasPending, sameId, fun isId => absurd isId other⟩

end Rows

/-! A step of a call. -/

section Calls

variable {services : Services}

/-- After a step of a call the pending rows are those from before, but for the one it removes and
the one it inserts. -/
theorem pending_effect {state next : State} {call later : Call} {input : Input}
    (effect : Effect services state input call next later) {row : ScheduleEntity}
    (member : row ∈ next.schedules.rows) (isPending : row.isPendingOnce = true) :
    (∃ before ∈ state.schedules.rows, before.isPendingOnce = true ∧ before.id = row.id ∧
      ∀ existing data, call = .softDeleting existing data → later ≠ .failed → row.id ≠ existing.id) ∨
    ∃ data, call = .creating data ∧ row = data.row input.id ∧ later = .clearing row := by
  cases effect with
  | softDeleted | cancelled =>
      refine .inl ?_
      obtain ⟨before, isBefore, wasPending, sameId, changed⟩ :=
        pending_update (.cancelled input.now) (fun _ => rfl)
          (pending_never (not_pending_cancelled input.now)) member isPending
      refine ⟨before, isBefore, wasPending, sameId, ?_⟩
      rintro other data isSame - isId
      cases isSame
      have still := changed isId
      rw [not_pending_cancelled] at still
      cases still
  | @recorded entity bullJobId =>
      refine .inl ?_
      have keeps : ∀ row : ScheduleEntity, (row.withJob bullJobId).isPendingOnce = true →
          row.isPendingOnce = true := fun _ isPending => isPending
      obtain ⟨before, isBefore, wasPending, sameId, _⟩ :=
        pending_update (.withJob bullJobId) (fun _ => rfl) keeps member isPending
      exact ⟨before, isBefore, wasPending, sameId, by simp⟩
  | createdOnce created =>
      rw [(Schedules.create_some created).2] at member
      rcases List.mem_append.mp member with before | isNew
      · exact .inl ⟨row, before, isPending, rfl, by simp⟩
      · obtain rfl := List.mem_singleton.mp isNew
        exact .inr ⟨_, rfl, rfl, rfl⟩
  | createdRecurring created recurring =>
      rw [(Schedules.create_some created).2] at member
      rcases List.mem_append.mp member with before | isNew
      · exact .inl ⟨row, before, isPending, rfl, by simp⟩
      · obtain rfl := List.mem_singleton.mp isNew
        have isOnce := (isPendingOnce_iff.mp isPending).2.1
        rw [CreateScheduleInput.row, recurring] at isOnce
        cases isOnce
  | failed => exact .inl ⟨row, member, isPending, rfl, by simp⟩
  | _ => exact .inl ⟨row, member, isPending, rfl, by simp⟩

/-- A careful call that holds a row does not fail. -/
theorem not_failed_of_careful {state next : State} {call later : Call} {input : Input}
    {id : JsString} (careful : CarefulCall services state call input)
    (holds : call.holds = some id)
    (taken : advance services state call input = some (next, later)) : later ≠ .failed := by
  have works := careful.works (by rw [holds]; exact Option.some_ne_none id)
  cases call with
  | softDeleting existing data =>
      simp only [advance, works, Bool.false_and, Bool.false_eq_true, if_false] at taken
      split at taken <;> cases taken <;> exact Call.noConfusion
  | clearing entity =>
      simp only [advance, works, Bool.false_and, Bool.false_eq_true, if_false] at taken
      cases taken
      exact Call.noConfusion
  | adding entity =>
      have isOnce : entity.type = .once := by
        by_contra recurring
        rw [Call.holds, if_neg recurring] at holds
        cases holds
      have accepts := (careful.accepted entity rfl isOnce).1
      simp only [advance, works, isOnce, Queue.add, accepts, Bool.false_and, Bool.false_eq_true,
        if_false, if_true] at taken
      cases taken
      exact Call.noConfusion
  | _ => cases holds

/-- What a call holds is held on, or has its job, or is not pending any more. -/
theorem holder_advances {state next : State} {call later : Call} {input : Input} {id : JsString}
    (careful : CarefulCall services state call input) (holds : call.holds = some id)
    (taken : advance services state call input = some (next, later)) :
    later.holds = some id ∨
      (∃ job ∈ next.queue.jobs, job.status = .waiting ∧ job.data.data.scheduleId = id) ∨
      ∃ existing data, call = .softDeleting existing data ∧ existing.id = id := by
  have alive := not_failed_of_careful careful holds taken
  cases advance_effect taken with
  | failed => exact absurd rfl alive
  | softDeleted | cancelled =>
      refine .inr (.inr ⟨_, _, rfl, ?_⟩)
      exact Option.some.inj (Option.ite_none_right_eq_some.mp holds).2
  | cleared | uncleared => exact .inl holds
  | @added entity queue isOnce added =>
      obtain rfl := Option.some.inj (Option.ite_none_right_eq_some.mp added).2
      have isNew := (careful.accepted entity rfl isOnce).2
      refine .inr (.inl ⟨_, JobQueue.mem_add.mpr (.inr ⟨isNew, rfl⟩), rfl, ?_⟩)
      exact Option.some.inj (Option.ite_none_right_eq_some.mp holds).2
  | addedRecurring recurring =>
      rw [Call.holds, if_neg (by rw [recurring]; exact ScheduleType.noConfusion)] at holds
      cases holds
  | _ => cases holds

/-- The job of a pending row stays, or is removed by the call that goes on to remove the row. -/
theorem job_survives {state next : State} {call later : Call} {input : Input}
    (careful : CarefulCall services state call input)
    (effect : Effect services state input call next later) {row : ScheduleEntity}
    (member : row ∈ state.schedules.rows) (isPending : row.isPendingOnce = true)
    {job : JobQueue.Job JsString DelayedJob} (isJob : job ∈ state.queue.jobs)
    (isOwn : job.data.data.scheduleId = row.id) :
    job ∈ next.queue.jobs ∨ later.holds = some row.id := by
  have spares := fun jobId removes same =>
    careful.spares jobId removes job isJob same row member isPending isOwn.symm
  cases effect with
  | @unqueued existing data =>
      unfold removeFromQueue
      split
      · exact .inl isJob
      · rename_i bullJobId isId
        split
        · exact .inl isJob
        · rename_i isOnce
          by_cases sameId : job.id = bullJobId
          · have evicted :=
              spares bullJobId (by rw [Call.removesJob, if_pos isOnce, isId]; rfl) sameId
            refine .inr ?_
            rw [Call.holds, if_pos isOnce]
            exact evicted
          · exact .inl (List.mem_filter.mpr ⟨isJob, decide_eq_true fun removed => sameId removed.1⟩)
  | @cleared entity =>
      refine .inl (List.mem_filter.mpr ⟨isJob, decide_eq_true fun removed => ?_⟩)
      exact nomatch spares (jobIdOf services entity) rfl removed.1
  | @added entity queue isOnce added =>
      obtain rfl := Option.some.inj (Option.ite_none_right_eq_some.mp added).2
      exact .inl (JobQueue.mem_add.mpr (.inl isJob))
  | _ => exact .inl isJob

/-- A call that comes to have inserted a row made up its id. -/
theorem enqueues_effect {state next : State} {call later : Call} {input : Input}
    (effect : Effect services state input call next later) {entity : ScheduleEntity}
    (enqueues : later.enqueues = some entity) :
    (∀ other, call ≠ .adding other) ∧
      (call.enqueues = some entity ∨ entity.id ∉ state.schedules.ids) := by
  cases effect with
  | createdOnce created | createdRecurring created =>
      obtain rfl := Option.some.inj enqueues
      exact ⟨by simp, .inr (Schedules.create_some created).1.1⟩
  | cleared | uncleared => exact ⟨by simp, .inl enqueues⟩
  | _ => cases enqueues

/-- What a step of a call does to the jobs: it removes some, or adds the one of its row. -/
theorem jobs_effect {state next : State} {call later : Call} {input : Input}
    (effect : Effect services state input call next later) :
    next.queue.jobs.Sublist state.queue.jobs ∨
      ∃ entity, call = .adding entity ∧
        next.queue.jobs = JobQueue.add state.queue.jobs (jobIdOf services entity)
          (delayedJob services entity input.now) := by
  cases effect with
  | unqueued => exact .inl (removeFromQueue_sublist _ _).1
  | cleared => exact .inl List.filter_sublist
  | @added entity queue isOnce added =>
      obtain rfl := Option.some.inj (Option.ite_none_right_eq_some.mp added).2
      exact .inr ⟨entity, rfl, rfl⟩
  | _ => exact .inl (List.Sublist.refl _)

theorem jobOwners_effect {state next : State} {call later : Call} {input : Input}
    (effect : Effect services state input call next later) {id : JsString}
    (owns : id ∈ jobOwners next.queue) :
    id ∈ jobOwners state.queue ∨ ∃ entity, call = .adding entity ∧ entity.id = id := by
  obtain ⟨job, isJob, rfl⟩ := List.mem_map.mp owns
  rcases effect_jobs effect job isJob with before | ⟨entity, rfl, _, isData⟩
  · exact .inl (List.mem_map_of_mem before)
  · exact .inr ⟨entity, rfl, by rw [isData]; rfl⟩

/-- The jobs in the queue, and the calls at work, are of rows in the table. -/
theorem Defined.owners_subset {world : World} (defined : Defined services world) {id : JsString}
    (owns : id ∈ jobOwners world.state.queue) : id ∈ world.state.schedules.ids := by
  obtain ⟨job, isJob, rfl⟩ := List.mem_map.mp owns
  obtain ⟨definition, isDefinition, sameId, _⟩ := defined.jobs job isJob
  obtain ⟨row, isRow, rfl⟩ := List.mem_map.mp isDefinition
  exact sameId ▸ List.mem_map_of_mem isRow

theorem Defined.enqueues_mem {world : World} (defined : Defined services world) {call : Call}
    (member : call ∈ world.calls) {entity : ScheduleEntity} (enqueues : call.enqueues = some entity) :
    entity.id ∈ world.state.schedules.ids := by
  obtain ⟨row, isRow, same⟩ := List.mem_map.mp (defined.calls call member entity enqueues)
  exact List.mem_map.mpr ⟨row, isRow, congrArg Definition.id same⟩

section Step

variable {world : World} {index : Nat} {call later : Call} {input : Input} {state : State}

/-- Two calls that have inserted one row. -/
def SameRow (one other : Call) : Prop :=
  ∃ entity second, one.enqueues = some entity ∧ other.enqueues = some second ∧
    entity.id = second.id

theorem Backed.rowwise (backed : Backed world) : Processes.Apart SameRow world.calls := by
  rintro first second one other isFirst isSecond ⟨entity, row, oneHas, otherHas, same⟩
  exact backed.apart first second one other entity row isFirst isSecond oneHas otherHas same

theorem Backed.fresh_advance (backed : Backed world) (defined : Defined services world)
    (isCall : world.calls[index]? = some call)
    (effect : Effect services world.state input call state later) :
    ∀ other ∈ world.calls.set index later, ∀ entity ∈ other.enqueues,
      entity.id ∉ jobOwners state.queue := by
  intro other isOther entity enqueues owns
  have member := List.mem_of_getElem? isCall
  rcases Processes.mem_set isOther with rfl | ⟨place, different, isPlace⟩
  · obtain ⟨notAdding, known⟩ := enqueues_effect effect enqueues
    rcases jobOwners_effect effect owns with before | ⟨added, isAdding, _⟩
    · rcases known with same | isNew
      · exact backed.fresh call member entity same before
      · exact isNew (defined.owners_subset before)
    · exact notAdding added isAdding
  · rcases jobOwners_effect effect owns with before | ⟨added, rfl, sameId⟩
    · exact backed.fresh other (List.mem_of_getElem? isPlace) entity enqueues before
    · exact different (backed.apart place index _ _ entity added isPlace isCall enqueues rfl
        sameId.symm)

theorem Backed.apart_advance (backed : Backed world) (defined : Defined services world)
    (isCall : world.calls[index]? = some call)
    (effect : Effect services world.state input call state later) {place : Nat} {other : Call}
    {entity second : ScheduleEntity} (isOther : world.calls[place]? = some other)
    (enqueues : later.enqueues = some entity) (otherEnqueues : other.enqueues = some second)
    (same : entity.id = second.id) : place = index := by
  rcases (enqueues_effect effect enqueues).2 with before | isNew
  · exact backed.apart place index _ _ second entity isOther isCall otherEnqueues before same.symm
  · rw [same] at isNew
    exact absurd (defined.enqueues_mem (List.mem_of_getElem? isOther) otherEnqueues) isNew

theorem Backed.attended_advance (backed : Backed world)
    (careful : CarefulCall services world.state call input)
    (isCall : world.calls[index]? = some call)
    (taken : advance services world.state call input = some (state, later))
    {row : ScheduleEntity} (member : row ∈ state.schedules.rows)
    (isPending : row.isPendingOnce = true) :
    Attended { state, calls := world.calls.set index later } row.id := by
  have effect := advance_effect taken
  have isLater : later ∈ world.calls.set index later :=
    List.mem_of_getElem? (List.getElem?_set_self (List.getElem?_eq_some_iff.mp isCall).1)
  have others : ∀ other ∈ world.calls, other ≠ call → other ∈ world.calls.set index later := by
    intro other isOther different
    obtain ⟨place, isPlace⟩ := List.mem_iff_getElem?.mp isOther
    have apart : index ≠ place := by
      rintro rfl
      exact different (Option.some.inj (isPlace.symm.trans isCall))
    exact List.mem_of_getElem? ((List.getElem?_set_ne apart).trans isPlace)
  rcases pending_effect effect member isPending with
    ⟨before, isBefore, wasPending, sameId, notRemoved⟩ | ⟨data, rfl, rfl, rfl⟩
  · rw [← sameId] at notRemoved ⊢
    rcases backed.attended before isBefore wasPending with
      ⟨job, isJob, waits, isOwn⟩ | ⟨other, isOther, holds⟩
    · rcases job_survives careful effect isBefore wasPending isJob isOwn with stays | held
      · exact .inl ⟨job, stays, waits, isOwn⟩
      · exact .inr ⟨later, isLater, held⟩
    · by_cases isSame : other = call
      · rw [isSame] at holds
        rcases holder_advances careful holds taken with held | queued | ⟨existing, data, rfl, isId⟩
        · exact .inr ⟨later, isLater, held⟩
        · exact .inl queued
        · exact absurd isId.symm (notRemoved existing data rfl
            (not_failed_of_careful careful holds taken))
      · exact .inr ⟨other, others other isOther isSame, holds⟩
  · refine .inr ⟨_, isLater, ?_⟩
    rw [Call.holds, if_pos (isPendingOnce_iff.mp isPending).2.1]

theorem Backed.jobs_advance (backed : Backed world) (isCall : world.calls[index]? = some call)
    (effect : Effect services world.state input call state later) :
    (JobQueue.ids state.queue.jobs).Nodup ∧ (jobOwners state.queue).Nodup := by
  rcases jobs_effect effect with fewer | ⟨entity, rfl, isAdded⟩
  · exact ⟨backed.ids.sublist (fewer.map _), backed.owners.sublist (fewer.map _)⟩
  · rw [jobOwners, isAdded]
    refine ⟨JobQueue.ids_add_nodup backed.ids _ _, ?_⟩
    unfold JobQueue.add
    split
    · exact backed.owners
    · rw [List.map_append]
      refine List.nodup_append.mpr ⟨backed.owners, List.nodup_singleton _, ?_⟩
      rintro owner isOwner other isNew rfl
      rw [List.mem_singleton.mp isNew] at isOwner
      exact backed.fresh _ (List.mem_of_getElem? isCall) entity rfl isOwner

theorem Backed.advance (backed : Backed world) (defined : Defined services world)
    (careful : CarefulCall services world.state call input)
    (isCall : world.calls[index]? = some call)
    (taken : Scheduler.advance services world.state call input = some (state, later)) :
    Backed { state, calls := world.calls.set index later } where
  ids := (backed.jobs_advance isCall (advance_effect taken)).1
  owners := (backed.jobs_advance isCall (advance_effect taken)).2
  fresh := backed.fresh_advance defined isCall (advance_effect taken)
  apart := by
    have effect := advance_effect taken
    intro first second firstCall secondCall entity other isFirst isSecond firstEnqueues
      secondEnqueues same
    refine (backed.rowwise.set ?_) first second _ _ isFirst isSecond
      ⟨entity, other, firstEnqueues, secondEnqueues, same⟩
    rintro place call isPlace (⟨own, second, laterHas, callHas, same⟩ |
      ⟨second, own, callHas, laterHas, same⟩)
    · exact backed.apart_advance defined isCall effect isPlace laterHas callHas same
    · exact backed.apart_advance defined isCall effect isPlace laterHas callHas same.symm
  attended := fun row member isPending =>
    backed.attended_advance careful isCall taken member isPending

end Step

end Calls

/-! Runs, a lost queue, and passes. -/

section Incidents

variable {services : Services} {world : World}

theorem backed_start : Backed .start where
  ids := List.nodup_nil
  owners := List.nodup_nil
  fresh := by simp [World.start]
  apart := by simp [World.start]
  attended := by simp [World.start, State.start, Schedules.empty]

theorem Backed.ask (backed : Backed world) (request : Request) :
    Backed { world with calls := world.calls ++ [request.call] } where
  ids := backed.ids
  owners := backed.owners
  fresh := by
    intro call member entity enqueues
    rcases List.mem_append.mp member with before | isNew
    · exact backed.fresh call before entity enqueues
    · rw [List.mem_singleton.mp isNew] at enqueues
      cases request <;> cases enqueues
  apart := by
    intro first second firstCall secondCall entity other isFirst isSecond firstEnqueues
      secondEnqueues same
    refine (backed.rowwise.append fun call => ?_) first second _ _ isFirst isSecond
      ⟨entity, other, firstEnqueues, secondEnqueues, same⟩
    have idle : request.call.enqueues = none := by cases request <;> rfl
    simp [SameRow, idle]
  attended := fun row member isPending => (backed.attended row member isPending).imp_right
    fun ⟨call, isCall, holds⟩ => ⟨call, List.mem_append_left _ isCall, holds⟩

/-- A step that leaves the calls alone, and to each pending row its job. -/
theorem Backed.next (backed : Backed world) {state : State}
    (ids : (JobQueue.ids state.queue.jobs).Nodup) (owners : (jobOwners state.queue).Nodup)
    (fewer : jobOwners state.queue ⊆ jobOwners world.state.queue)
    (pending : ∀ row ∈ state.schedules.rows, row.isPendingOnce = true →
      ∃ before ∈ world.state.schedules.rows, before.isPendingOnce = true ∧ before.id = row.id ∧
        ∀ job ∈ world.state.queue.jobs, job.status = .waiting → job.data.data.scheduleId = row.id →
          ∃ kept ∈ state.queue.jobs, kept.status = .waiting ∧ kept.data.data.scheduleId = row.id) :
    Backed { world with state } where
  ids := ids
  owners := owners
  fresh := fun call member entity enqueues owns =>
    backed.fresh call member entity enqueues (fewer owns)
  apart := backed.apart
  attended := by
    intro row member isPending
    obtain ⟨before, isBefore, wasPending, sameId, keeps⟩ := pending row member isPending
    rcases backed.attended before isBefore wasPending with ⟨job, isJob, waits, isOwn⟩ | held
    · exact .inl (keeps job isJob waits (isOwn.trans sameId))
    · rw [sameId] at held
      exact .inr held

theorem jobOwners_runJob (state : State) (jobId : JsString) (succeeds : Bool) (now : Timestamp) :
    jobOwners (runJob state jobId succeeds now).queue ⊆ jobOwners state.queue := by
  intro owner isOwner
  obtain ⟨job, isJob, rfl⟩ := List.mem_map.mp isOwner
  obtain ⟨before, isBefore, _, sameData⟩ := mem_runJob isJob
  rw [← sameData]
  exact List.mem_map_of_mem isBefore

theorem Backed.runJob (backed : Backed world) (jobId : JsString) (succeeds : Bool)
    (now : Timestamp) :
    Backed { world with state := Scheduler.runJob world.state jobId succeeds now } := by
  have fewer := jobOwners_runJob world.state jobId succeeds now
  cases found : JobQueue.withStatus world.state.queue.jobs jobId .waiting with
  | none =>
      have same : Scheduler.runJob world.state jobId succeeds now = world.state := by
        rw [Scheduler.runJob, found]
      rw [same]
      exact backed
  | some job =>
      obtain ⟨isJob, isId, _⟩ := JobQueue.withStatus_some found
      refine backed.next ?_ ?_ fewer ?_
      · simp only [Scheduler.runJob, found]
        split
        · exact JobQueue.ids_complete_nodup backed.ids jobId
        · rw [JobQueue.ids_retry]
          exact backed.ids
      · simp only [jobOwners, Scheduler.runJob, found]
        split
        · exact JobQueue.data_complete_nodup (fun data : DelayedJob => data.data.scheduleId)
            backed.owners jobId
        · have same := JobQueue.data_retry job.data.policy.attempts.toNat world.state.queue.jobs
            jobId fun data : DelayedJob => data.data.scheduleId
          rw [same]
          exact backed.owners
      · intro row member isPending
        simp only [Scheduler.runJob, found] at member ⊢
        obtain ⟨before, isBefore, wasPending, sameId, retried⟩ :=
          pending_recordAttempt member isPending
        refine ⟨before, isBefore, wasPending, sameId, fun other isOther waits isOwn => ?_⟩
        by_cases isRun : other.id = jobId
        · obtain rfl := JobQueue.eq_of_id backed.ids isOther isJob (isRun.trans isId.symm)
          obtain ⟨fails, willRetry⟩ := retried isOwn.symm
          rw [fails]
          refine ⟨_, JobQueue.mem_change_of_eq _ isOther isRun, ?_, isOwn⟩
          exact if_pos (of_decide_eq_true willRetry)
        · refine ⟨other, ?_, waits, isOwn⟩
          split
          · exact JobQueue.mem_complete_of_ne isOther isRun
              (by rw [waits]; exact JobQueue.Status.noConfusion)
          · exact JobQueue.mem_change_of_ne _ isOther isRun

theorem Backed.runRepeatable (backed : Backed world) (repeatKey : JsString)
    (succeeds willRetry : Bool) (now : Timestamp) :
    Backed { world with
      state := Scheduler.runRepeatable world.state repeatKey succeeds willRetry now } := by
  have sameQueue := (runRepeatable_frame world.state repeatKey succeeds willRetry now).1
  refine backed.next ?_ ?_ ?_ ?_
  · rw [sameQueue]
    exact backed.ids
  · rw [sameQueue]
    exact backed.owners
  · rw [sameQueue]
    exact List.Subset.refl _
  · intro row member isPending
    rw [sameQueue]
    unfold Scheduler.runRepeatable at member
    split at member
    · exact ⟨row, member, isPending, rfl, fun job isJob waits isOwn => ⟨job, isJob, waits, isOwn⟩⟩
    · obtain ⟨before, isBefore, wasPending, sameId, _⟩ := pending_recordAttempt member isPending
      exact ⟨before, isBefore, wasPending, sameId,
        fun job isJob waits isOwn => ⟨job, isJob, waits, isOwn⟩⟩

theorem Backed.lose (backed : Backed world)
    (nonePending : ∀ row ∈ world.state.schedules.rows, row.isPendingOnce = false) :
    Backed { world with state := { world.state with queue := .empty } } := by
  refine backed.next List.nodup_nil List.nodup_nil (List.nil_subset _) fun row member isPending => ?_
  rw [nonePending row member] at isPending
  cases isPending

theorem Backed.reconcile (backed : Backed world) {listing : Listing} {now : Timestamp}
    {state : State} (done : Scheduler.reconcile services now listing world.state = some state) :
    Backed { world with state } := by
  obtain ⟨sameJobs, sameRows⟩ := reconcile_frame done
  refine backed.next ?_ ?_ ?_ ?_
  · rw [sameJobs]
    exact backed.ids
  · rw [jobOwners, sameJobs]
    exact backed.owners
  · rw [jobOwners, sameJobs]
    exact List.Subset.refl _
  · intro row member isPending
    have inOutline : row.unrecorded ∈ outline state.schedules := List.mem_map_of_mem member
    rw [sameRows] at inOutline
    obtain ⟨before, isBefore, same⟩ := List.mem_map.mp inOutline
    have samePending : before.unrecorded.isPendingOnce = row.unrecorded.isPendingOnce :=
      congrArg ScheduleEntity.isPendingOnce same
    have sameId : before.unrecorded.id = row.unrecorded.id := congrArg ScheduleEntity.id same
    refine ⟨before, isBefore, samePending.trans isPending, sameId, ?_⟩
    rw [sameJobs]
    exact fun job isJob waits isOwn => ⟨job, isJob, waits, isOwn⟩

theorem Backed.queued (backed : Backed world) (defined : Defined services world)
    (noneHeld : ∀ call ∈ world.calls, call.holds = none) :
    ∀ row ∈ world.state.schedules.rows, row.isPendingOnce = true →
      (entriesOf world.state.queue row.id).length = 1 := by
  intro row member isPending
  rw [entriesOf_length, defined.repeatablesOf_once member (isPendingOnce_iff.mp isPending).2.1]
  rcases backed.attended row member isPending with ⟨job, isJob, waits, isOwn⟩ | ⟨call, isCall, holds⟩
  · have isWaiting : job ∈ waitingFor world.state.queue row.id :=
      List.mem_filter.mpr ⟨isJob, decide_eq_true ⟨waits, isOwn⟩⟩
    have alone : ∀ other ∈ waitingFor world.state.queue row.id, other = job := by
      intro other isOther
      obtain ⟨inQueue, facts⟩ := List.mem_filter.mp isOther
      exact List.inj_on_of_nodup_map backed.owners inQueue isJob
        ((of_decide_eq_true facts).2.trans isOwn.symm)
    have distinct : (waitingFor world.state.queue row.id).Nodup :=
      (backed.owners.of_map _).filter _
    rw [List.eq_replicate_of_mem alone, List.nodup_replicate] at distinct
    exact Nat.le_antisymm distinct (List.length_pos_of_mem isWaiting)
  · rw [noneHeld call isCall] at holds
    cases holds

end Incidents

theorem Backed.incident {services : Services} {installation next : Installation}
    {incident : Incident services.bull} (backed : Backed installation.world)
    (defined : Defined services installation.world)
    (careful : Careful services installation incident)
    (taken : installation.step services incident = some next) : Backed next.world := by
  cases incident with
  | act action =>
      obtain ⟨world, stepped, rfl⟩ := Option.map_eq_some_iff.mp taken
      cases action with
      | ask request =>
          cases stepped
          exact backed.ask request
      | advance index input =>
          cases step_cases stepped with
          | advanced isCall advanced =>
              exact backed.advance defined (careful _ isCall) isCall advanced
          | ran other => exact absurd rfl (other index input)
      | runJob jobId succeeds now =>
          cases stepped
          exact backed.runJob jobId succeeds now
      | runRepeatable repeatKey succeeds willRetry now =>
          cases stepped
          exact backed.runRepeatable repeatKey succeeds willRetry now
  | loseQueue =>
      cases taken
      exact backed.lose careful
  | reconcile listing now =>
      obtain ⟨state, done, rfl⟩ := Option.map_eq_some_iff.mp taken
      exact backed.reconcile done

theorem queued_of_careful {services : Services} {installation : Installation}
    {incident : Incident services.bull} (backed : Backed installation.world)
    (defined : Defined services installation.world)
    (careful : Careful services installation incident) :
    OneShotsQueued services installation incident := by
  cases incident with
  | reconcile listing now => exact backed.queued defined careful
  | act | loseQueue => trivial

end Scheduler
