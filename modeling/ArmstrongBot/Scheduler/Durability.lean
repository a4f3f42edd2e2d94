import ArmstrongBot.Scheduler.Concurrency
import ArmstrongBot.Scheduler.Recurrence

/-! Calls that fail at any step, a queue that loses its content, and what a pass makes up for. -/

namespace Scheduler

open JsText StepMachine
open Calendar (Timestamp)

/-- The calls on the table and the queue, and whether a whole pass has just ended. -/
structure Installation where
  world : World
  reconciled : Bool

def Installation.start : Installation := { world := .start, reconciled := false }

inductive Incident (bull : BullMQ)
  | act (action : Action)
  | loseQueue
  | reconcile (listing : FaithfulListing bull) (now : Timestamp)

def entriesOf (queue : Queue) (id : JsString) : List QueueEntry :=
  (queueEntries queue).filter fun entry => entry.scheduleId = id

def ScheduleEntity.isPendingOnce (row : ScheduleEntity) : Bool :=
  row.isLive && row.type = .once && row.status = .pending

def ScheduleEntity.isActiveRecurring (row : ScheduleEntity) : Bool :=
  row.isLive && row.type = .recurring && row.status = .active

section

variable (services : Services)

def Installation.step (installation : Installation) :
    Incident services.bull → Option Installation
  | .act action =>
      (installation.world.step services action).map fun world => { world, reconciled := false }
  | .loseQueue =>
      some
        { world := { installation.world with
            state := { installation.world.state with queue := .empty } }
          reconciled := false }
  | .reconcile listing now =>
      (reconcile services now listing.1 installation.world.state).map fun state =>
        { world := { installation.world with state }, reconciled := true }

/-- After a whole pass every live schedule, pending one-shot or active recurring, has one entry. -/
def Durable (installation : Installation) : Prop :=
  installation.reconciled = true → ∀ row ∈ installation.world.state.schedules.rows,
    row.isPendingOnce = true ∨ row.isActiveRecurring = true →
      (entriesOf installation.world.state.queue row.id).length = 1

/-- Before a pass every pending one-shot schedule has its entry. -/
def OneShotsQueued (installation : Installation) : Incident services.bull → Prop
  | .reconcile _ _ => ∀ row ∈ installation.world.state.schedules.rows, row.isPendingOnce = true →
      (entriesOf installation.world.state.queue row.id).length = 1
  | _ => True

end

/-! What the rows define is never changed. -/

structure Definition where
  id : JsString
  type : ScheduleType
  kind : JsString
  repeats : RepeatOptions
  deriving DecidableEq

def ScheduleEntity.definition (row : ScheduleEntity) : Definition :=
  { id := row.id, type := row.type, kind := row.kind, repeats := repeatsOf row }

/-- What the row of a repeatable has defined. -/
def Repeatable.definition (repeatable : Repeatable) : Definition :=
  { id := repeatable.data.scheduleId, type := .recurring, kind := repeatable.name
    repeats := repeatable.repeats }

def Schedules.definitions (schedules : Schedules) : List Definition :=
  schedules.rows.map ScheduleEntity.definition

/-- The row that a call has inserted and is about to enqueue. -/
def Call.enqueues : Call → Option ScheduleEntity
  | .clearing entity | .adding entity => some entity
  | _ => none

/-- The repeatables and the jobs in the queue, and those to come, are of rows in the table. -/
structure Defined (services : Services) (world : World) : Prop where
  registered : Registered services.bull world.state.queue
  repeatables : ∀ repeatable ∈ world.state.queue.repeatables,
    repeatable.definition ∈ world.state.schedules.definitions
  jobs : ∀ job ∈ world.state.queue.jobs, ∃ definition ∈ world.state.schedules.definitions,
    definition.id = job.data.data.scheduleId ∧ definition.type = .once
  calls : ∀ call ∈ world.calls, ∀ entity ∈ call.enqueues,
    entity.definition ∈ world.state.schedules.definitions

section Definitions

variable {services : Services}

theorem definitions_update (schedules : Schedules) (id : JsString)
    (change : ScheduleEntity → ScheduleEntity)
    (same : ∀ row, (change row).id = row.id ∧ (change row).dedup = row.dedup)
    (sameDefinition : ∀ row, (change row).definition = row.definition) :
    (schedules.update id change same).definitions = schedules.definitions := by
  rw [Schedules.definitions, Schedules.update, List.map_map,
    Schedules.comp_written sameDefinition, Schedules.definitions]

theorem definitions_outline (schedules : Schedules) :
    schedules.definitions = (outline schedules).map ScheduleEntity.definition := by
  rw [outline, List.map_map]
  rfl

theorem definitions_recordAttempt (schedules : Schedules) (id : JsString)
    (succeeds willRetry : Bool) (now : Timestamp) :
    (recordAttempt schedules id succeeds willRetry now).definitions = schedules.definitions := by
  unfold recordAttempt
  split
  · exact definitions_update _ _ _ _ fun _ => rfl
  · split
    · rfl
    · exact definitions_update _ _ _ _ fun _ => rfl

theorem definition_inj {schedules : Schedules} {first second : Definition}
    (firstMember : first ∈ schedules.definitions) (secondMember : second ∈ schedules.definitions)
    (same : first.id = second.id) : first = second := by
  obtain ⟨row, isRow, rfl⟩ := List.mem_map.mp firstMember
  obtain ⟨other, isOther, rfl⟩ := List.mem_map.mp secondMember
  rw [Schedules.eq_of_id isRow isOther same]

/-- A step of a call keeps all definitions. -/
theorem effect_definitions {state next : State} {call later : Call} {input : Input}
    (effect : Effect services state input call next later) :
    state.schedules.definitions ⊆ next.schedules.definitions := by
  cases effect with
  | softDeleted | cancelled =>
      rw [Schedules.softDelete, definitions_update]
      · exact List.Subset.refl _
      · exact fun _ => rfl
  | recorded =>
      rw [Schedules.setBullJobId, definitions_update]
      · exact List.Subset.refl _
      · exact fun _ => rfl
  | createdOnce created | createdRecurring created =>
      rw [Schedules.definitions, Schedules.definitions, (Schedules.create_some created).2,
        List.map_append]
      exact List.subset_append_left _ _
  | _ => exact List.Subset.refl _

theorem definition_repeatableOf {entity : ScheduleEntity} (recurring : entity.type = .recurring)
    (now : Timestamp) : (repeatableOf services entity now).definition = entity.definition := by
  rw [ScheduleEntity.definition, recurring]
  rfl

/-- A call only registers the repeatable of the row that it has inserted. -/
theorem effect_repeatables {state next : State} {call later : Call} {input : Input}
    (effect : Effect services state input call next later) :
    ∀ repeatable ∈ next.queue.repeatables, repeatable ∈ state.queue.repeatables ∨
      ∃ entity, call = .adding entity ∧ entity.type = .recurring ∧
        repeatable = repeatableOf services entity input.now := by
  intro repeatable member
  cases effect with
  | unqueued => exact .inl ((removeFromQueue_subset _ _).2 member)
  | @added entity queue isOnce added =>
      obtain rfl := Option.some.inj (Option.ite_none_right_eq_some.mp added).2
      exact .inl member
  | addedRecurring isRecurring =>
      rcases List.mem_append.mp member with before | isNew
      · exact .inl (removeRepeatable_subset _ _ before)
      · exact .inr ⟨_, rfl, isRecurring, List.mem_singleton.mp isNew⟩
  | _ => exact .inl member

theorem effect_jobs {state next : State} {call later : Call} {input : Input}
    (effect : Effect services state input call next later) :
    ∀ job ∈ next.queue.jobs, job ∈ state.queue.jobs ∨
      ∃ entity, call = .adding entity ∧ entity.type = .once ∧
        job.data = delayedJob services entity input.now := by
  intro job member
  cases effect with
  | unqueued => exact .inl ((removeFromQueue_subset _ _).1 member)
  | cleared => exact .inl (removeJob_subset _ _ member)
  | @added entity queue isOnce added =>
      obtain rfl := Option.some.inj (Option.ite_none_right_eq_some.mp added).2
      rcases JobQueue.mem_add.mp member with before | ⟨_, rfl⟩
      · exact .inl before
      · exact .inr ⟨entity, rfl, isOnce, rfl⟩
  | _ => exact .inl member

theorem effect_registered {state next : State} {call later : Call} {input : Input}
    (registered : Registered services.bull state.queue)
    (effect : Effect services state input call next later) :
    Registered services.bull next.queue := by
  cases effect with
  | @unqueued existing =>
      unfold removeFromQueue
      split
      · exact registered
      · split
        · exact registered.removeRepeatable _
        · exact ⟨registered.distinct, registered.keyed⟩
  | cleared => exact ⟨registered.distinct, registered.keyed⟩
  | @added entity queue isOnce added =>
      obtain rfl := Option.some.inj (Option.ite_none_right_eq_some.mp added).2
      exact ⟨registered.distinct, registered.keyed⟩
  | addedRecurring => exact registered.addRecurring rfl
  | _ => exact registered

theorem effect_enqueues {state next : State} {call later : Call} {input : Input}
    (effect : Effect services state input call next later) {entity : ScheduleEntity}
    (enqueues : later.enqueues = some entity) :
    call.enqueues = some entity ∨ entity.definition ∈ next.schedules.definitions := by
  cases effect with
  | createdOnce created | createdRecurring created =>
      obtain rfl := Option.some.inj enqueues
      refine .inr (List.mem_map_of_mem ?_)
      rw [(Schedules.create_some created).2]
      exact List.mem_append_right _ (List.mem_singleton_self _)
  | cleared | uncleared => exact .inl enqueues
  | _ => cases enqueues

theorem Defined.next {world : World} (defined : Defined services world) {state : State}
    {calls : List Call}
    (grows : world.state.schedules.definitions ⊆ state.schedules.definitions)
    (registered : Registered services.bull state.queue)
    (repeatables : ∀ repeatable ∈ state.queue.repeatables,
      repeatable ∈ world.state.queue.repeatables ∨
        repeatable.definition ∈ state.schedules.definitions)
    (jobs : ∀ job ∈ state.queue.jobs, (∃ before ∈ world.state.queue.jobs, before.data = job.data) ∨
      ∃ definition ∈ state.schedules.definitions,
        definition.id = job.data.data.scheduleId ∧ definition.type = .once)
    (enqueues : ∀ call ∈ calls, call ∈ world.calls ∨
      ∀ entity ∈ call.enqueues, entity.definition ∈ state.schedules.definitions) :
    Defined services { state, calls } where
  registered := registered
  repeatables := fun repeatable member => (repeatables repeatable member).elim
    (fun before => grows (defined.repeatables repeatable before)) id
  jobs := by
    intro job member
    rcases jobs job member with ⟨before, isBefore, sameData⟩ | known
    · obtain ⟨definition, isDefinition, facts⟩ := defined.jobs before isBefore
      rw [sameData] at facts
      exact ⟨definition, grows isDefinition, facts⟩
    · exact known
  calls := fun call member => (enqueues call member).elim
    (fun before entity isEntity => grows (defined.calls call before entity isEntity)) id

theorem Defined.advance {world : World} (defined : Defined services world) {index : Nat}
    {call later : Call} {input : Input} {state : State} (isCall : world.calls[index]? = some call)
    (effect : Effect services world.state input call state later) :
    Defined services { state, calls := world.calls.set index later } := by
  have grows := effect_definitions effect
  have member := List.mem_of_getElem? isCall
  refine defined.next grows (effect_registered defined.registered effect) ?_ ?_ ?_
  · intro repeatable isRepeatable
    refine (effect_repeatables effect repeatable isRepeatable).imp_right ?_
    rintro ⟨entity, rfl, recurring, rfl⟩
    rw [definition_repeatableOf recurring]
    exact grows (defined.calls _ member entity rfl)
  · intro job isJob
    rcases effect_jobs effect job isJob with before | ⟨entity, rfl, isOnce, isData⟩
    · exact .inl ⟨job, before, rfl⟩
    · refine .inr ⟨entity.definition, grows (defined.calls _ member entity rfl), ?_, isOnce⟩
      rw [isData]
      rfl
  · intro other isOther
    rcases Processes.mem_set isOther with rfl | ⟨place, _, isPlace⟩
    · refine .inr fun entity enqueues => ?_
      rcases effect_enqueues effect enqueues with before | known
      · exact grows (defined.calls _ member entity before)
      · exact known
    · exact .inl (List.mem_of_getElem? isPlace)

theorem mem_runJob {state : State} {jobId : JsString} {succeeds : Bool} {now : Timestamp}
    {job : JobQueue.Job JsString DelayedJob}
    (member : job ∈ (runJob state jobId succeeds now).queue.jobs) :
    ∃ before ∈ state.queue.jobs, before.id = job.id ∧ before.data = job.data := by
  unfold runJob at member
  split at member
  · exact ⟨job, member, rfl, rfl⟩
  · cases succeeds with
    | true => exact JobQueue.mem_complete_origin member
    | false => exact JobQueue.mem_retry_origin member

theorem definitions_runJob (state : State) (jobId : JsString) (succeeds : Bool) (now : Timestamp) :
    (runJob state jobId succeeds now).schedules.definitions = state.schedules.definitions := by
  unfold runJob
  split
  · rfl
  · exact definitions_recordAttempt _ _ _ _ _

theorem repeatables_runJob (state : State) (jobId : JsString) (succeeds : Bool) (now : Timestamp) :
    (runJob state jobId succeeds now).queue.repeatables = state.queue.repeatables := by
  unfold runJob
  split <;> rfl

theorem runRepeatable_frame (state : State) (repeatKey : JsString) (succeeds willRetry : Bool)
    (now : Timestamp) :
    (runRepeatable state repeatKey succeeds willRetry now).queue = state.queue ∧
      (runRepeatable state repeatKey succeeds willRetry now).schedules.definitions =
        state.schedules.definitions := by
  unfold runRepeatable
  split
  · exact ⟨rfl, rfl⟩
  · exact ⟨rfl, definitions_recordAttempt _ _ _ _ _⟩

theorem Defined.step {world next : World} {action : Action} (defined : Defined services world)
    (taken : world.step services action = some next) : Defined services next := by
  cases action with
  | ask request =>
      cases taken
      refine defined.next (List.Subset.refl _) defined.registered (fun _ => .inl)
        (fun job member => .inl ⟨job, member, rfl⟩) fun call member => ?_
      rcases List.mem_append.mp member with before | isNew
      · exact .inl before
      · rw [List.mem_singleton.mp isNew]
        exact .inr fun entity enqueues => by cases request <;> cases enqueues
  | advance index input =>
      cases step_cases taken with
      | advanced isCall advanced => exact defined.advance isCall (advance_effect advanced)
      | ran other => exact absurd rfl (other index input)
  | runJob jobId succeeds now =>
      cases taken
      have sameRepeatables := repeatables_runJob world.state jobId succeeds now
      refine defined.next ?_ ?_ ?_ ?_ fun call => .inl
      · rw [definitions_runJob]
        exact List.Subset.refl _
      · exact ⟨by rw [sameRepeatables]; exact defined.registered.distinct,
          by rw [sameRepeatables]; exact defined.registered.keyed⟩
      · intro repeatable member
        rw [sameRepeatables] at member
        exact .inl member
      · intro job member
        obtain ⟨before, isBefore, _, sameData⟩ := mem_runJob member
        exact .inl ⟨before, isBefore, sameData⟩
  | runRepeatable repeatKey succeeds willRetry now =>
      cases taken
      obtain ⟨sameQueue, sameDefinitions⟩ :=
        runRepeatable_frame world.state repeatKey succeeds willRetry now
      refine defined.next ?_ ?_ ?_ ?_ fun call => .inl
      · rw [sameDefinitions]
        exact List.Subset.refl _
      · rw [sameQueue]
        exact defined.registered
      · rw [sameQueue]
        exact fun _ => .inl
      · rw [sameQueue]
        exact fun job member => .inl ⟨job, member, rfl⟩

/-! A pass. -/

theorem definitions_of_outline {schedules next : Schedules}
    (same : outline next = outline schedules) : next.definitions = schedules.definitions := by
  rw [definitions_outline, same, ← definitions_outline]

theorem mem_corrected {now : Timestamp} {row : ScheduleEntity} {existing : Option RepeatableSummary}
    {entries : List Repeatable} {repeatable : Repeatable}
    (member : repeatable ∈ corrected services now row existing entries) :
    repeatable ∈ entries ∨ repeatable = repeatableOf services row now := by
  unfold corrected at member
  split at member
  · rcases List.mem_append.mp member with kept | isNew
    · exact .inl (List.mem_filter.mp kept).1
    · exact .inr (List.mem_singleton.mp isNew)
  · split at member
    · rcases List.mem_append.mp member with kept | isNew
      · exact .inl (List.mem_filter.mp (List.mem_filter.mp kept).1).1
      · exact .inr (List.mem_singleton.mp isNew)
    · exact .inl member

/-- The repeatables of one schedule are one. -/
theorem Defined.sole {world : World} (defined : Defined services world) {first second : Repeatable}
    (firstMember : first ∈ world.state.queue.repeatables)
    (secondMember : second ∈ world.state.queue.repeatables)
    (same : first.data.scheduleId = second.data.scheduleId) : first = second := by
  have sameDefinition : first.definition = second.definition :=
    definition_inj (defined.repeatables first firstMember) (defined.repeatables second secondMember)
      same
  obtain ⟨_, _, sameName, sameRepeats⟩ := Definition.mk.inj sameDefinition
  refine key_inj defined.registered firstMember secondMember ?_
  rw [defined.registered.keyed first firstMember, defined.registered.keyed second secondMember,
    sameName, same, sameRepeats]

theorem Defined.current {world : World} (defined : Defined services world) {row : ScheduleEntity}
    {repeatable : Repeatable} (member : row ∈ world.state.schedules.rows)
    (isRepeatable : repeatable ∈ world.state.queue.repeatables)
    (same : repeatable.data.scheduleId = row.id) : Current row repeatable := by
  have sameDefinition : repeatable.definition = row.definition :=
    definition_inj (defined.repeatables repeatable isRepeatable) (List.mem_map_of_mem member) same
  exact congrArg Definition.repeats sameDefinition

theorem Defined.amendable {world : World} {listing : Listing} (defined : Defined services world)
    (reports : Reports services.bull listing) : Amendable services listing world.state := by
  have alone : ∀ id,
      (repeatablesOf (listing.order world.state.queue.repeatables) id).dropLast = [] := by
    intro id
    refine List.eq_nil_iff_forall_not_mem.mpr fun other inFront => ?_
    cases isLast : (repeatablesOf (listing.order world.state.queue.repeatables) id).getLast? with
    | none =>
        rw [List.getLast?_eq_none_iff.mp isLast] at inFront
        cases inFront
    | some last =>
        obtain ⟨isOther, otherId⟩ :=
          mem_repeatablesOf.mp ((mem_listed reports).mp (List.dropLast_subset _ inFront))
        obtain ⟨isRepeatable, lastId⟩ :=
          mem_repeatablesOf.mp ((mem_listed reports).mp (List.mem_of_getLast? isLast))
        have same := defined.sole isOther isRepeatable (otherId.trans lastId.symm)
        exact front_key_ne reports defined.registered isLast other inFront
          (congrArg Repeatable.key same)
  refine ⟨fun row member last isLast => .inl ⟨?_, alone row.id⟩, fun id _ => alone id⟩
  obtain ⟨isRepeatable, lastId⟩ :=
    mem_repeatablesOf.mp ((mem_listed reports).mp (List.mem_of_getLast? isLast))
  exact defined.current (mem_dbActive.mp member).1 isRepeatable lastId

theorem Defined.reconcile {world : World} {listing : Listing} {now : Timestamp} {state : State}
    (defined : Defined services world) (reports : Reports services.bull listing)
    (done : Scheduler.reconcile services now listing world.state = some state) :
    Defined services { world with state } := by
  have spec := reconcile_spec reports defined.registered done
  obtain ⟨sameJobs, sameRows⟩ := reconcile_frame done
  have sameDefinitions := definitions_of_outline sameRows
  refine defined.next ?_ spec.registered ?_ ?_ fun call => .inl
  · rw [sameDefinitions]
    exact List.Subset.refl _
  · intro repeatable member
    have isOwn : repeatable ∈ repeatablesOf state.queue.repeatables repeatable.data.scheduleId :=
      mem_repeatablesOf.mpr ⟨member, rfl⟩
    by_cases active : repeatable.data.scheduleId ∈
        (dbActive world.state.schedules).map ScheduleEntity.id
    · obtain ⟨row, isActive, isId⟩ := List.mem_map.mp active
      rw [← isId, spec.active row isActive] at isOwn
      rcases mem_corrected isOwn with before | rfl
      · exact .inl (mem_repeatablesOf.mp before).1
      · rw [definition_repeatableOf (mem_dbActive.mp isActive).2.1, sameDefinitions]
        exact .inr (List.mem_map_of_mem (mem_dbActive.mp isActive).1)
    · rw [spec.orphans _ active] at isOwn
      exact .inl (mem_repeatablesOf.mp (List.mem_filter.mp isOwn).1).1
  · intro job member
    rw [sameJobs] at member
    exact .inl ⟨job, member, rfl⟩

/-! The entries of a schedule. -/

/-- The jobs of a schedule that are to run. -/
def waitingFor (queue : Queue) (id : JsString) : List (JobQueue.Job JsString DelayedJob) :=
  queue.jobs.filter fun job => job.status = .waiting ∧ job.data.data.scheduleId = id

theorem entriesOf_length (queue : Queue) (id : JsString) :
    (entriesOf queue id).length =
      (waitingFor queue id).length + (repeatablesOf queue.repeatables id).length := by
  rw [entriesOf, queueEntries, List.filter_append, List.length_append, List.filter_map,
    List.length_map, List.filter_map, List.length_map, List.filter_filter, waitingFor, repeatablesOf]
  congr 2
  refine List.filter_congr fun job _ => ?_
  rw [Bool.decide_and, Bool.and_comm]
  rfl

theorem Defined.waitingFor_recurring {world : World} (defined : Defined services world)
    {row : ScheduleEntity} (member : row ∈ world.state.schedules.rows)
    (recurring : row.type = .recurring) : waitingFor world.state.queue row.id = [] := by
  refine List.filter_eq_nil_iff.mpr fun job isJob => ?_
  rw [decide_eq_true_eq]
  rintro ⟨_, isId⟩
  obtain ⟨definition, isDefinition, sameId, isOnce⟩ := defined.jobs job isJob
  obtain rfl := definition_inj isDefinition (List.mem_map_of_mem member) (sameId.trans isId)
  rw [ScheduleEntity.definition, recurring] at isOnce
  cases isOnce

theorem Defined.repeatablesOf_once {world : World} (defined : Defined services world)
    {row : ScheduleEntity} (member : row ∈ world.state.schedules.rows) (isOnce : row.type = .once) :
    repeatablesOf world.state.queue.repeatables row.id = [] := by
  refine List.eq_nil_iff_forall_not_mem.mpr fun repeatable isOwn => ?_
  obtain ⟨isRepeatable, isId⟩ := mem_repeatablesOf.mp isOwn
  have same : repeatable.definition = row.definition :=
    definition_inj (defined.repeatables repeatable isRepeatable) (List.mem_map_of_mem member) isId
  have recurring : ScheduleType.recurring = row.type := congrArg Definition.type same
  rw [isOnce] at recurring
  cases recurring

theorem isActiveRecurring_iff {row : ScheduleEntity} :
    row.isActiveRecurring = true ↔
      row.isLive = true ∧ row.type = .recurring ∧ row.status = .active := by
  simp [ScheduleEntity.isActiveRecurring, and_assoc]

theorem isPendingOnce_iff {row : ScheduleEntity} :
    row.isPendingOnce = true ↔ row.isLive = true ∧ row.type = .once ∧ row.status = .pending := by
  simp [ScheduleEntity.isPendingOnce, and_assoc]

/-- The pending one-shots are the same before and after a pass, and so are their entries. -/
theorem oneShots_reconcile {world : World} {listing : Listing} {now : Timestamp} {state : State}
    (defined : Defined services world) (reports : Reports services.bull listing)
    (done : reconcile services now listing world.state = some state) :
    (∀ row ∈ state.schedules.rows, row.isPendingOnce = true →
      (entriesOf state.queue row.id).length = 1) ↔
    ∀ row ∈ world.state.schedules.rows, row.isPendingOnce = true →
      (entriesOf world.state.queue row.id).length = 1 := by
  obtain ⟨sameJobs, sameRows⟩ := reconcile_frame done
  have after := defined.reconcile reports done
  have pending : ∀ rows : List ScheduleEntity, ∀ queue : Queue,
      (∀ row ∈ rows, row.isPendingOnce = true → (waitingFor queue row.id).length = 1) ↔
        ∀ row ∈ rows.map ScheduleEntity.unrecorded, row.isPendingOnce = true →
          (waitingFor queue row.id).length = 1 := by
    intro rows queue
    rw [List.forall_mem_map]
    rfl
  have entries : ∀ {world : World}, Defined services world →
      ((∀ row ∈ world.state.schedules.rows, row.isPendingOnce = true →
        (entriesOf world.state.queue row.id).length = 1) ↔
      ∀ row ∈ world.state.schedules.rows, row.isPendingOnce = true →
        (waitingFor world.state.queue row.id).length = 1) := by
    intro world defined
    refine forall₂_congr fun row member => imp_congr_right fun isPending => ?_
    rw [entriesOf_length, defined.repeatablesOf_once member (isPendingOnce_iff.mp isPending).2.1]
    rfl
  have waiting : waitingFor state.queue = waitingFor world.state.queue := by
    funext id
    rw [waitingFor, sameJobs]
    rfl
  rw [entries defined]
  refine (entries after).trans ?_
  rw [pending state.schedules.rows, pending world.state.schedules.rows, waiting, ← outline,
    ← outline, sameRows]

theorem recurring_durable {world : World} {listing : Listing} {now : Timestamp} {state : State}
    (defined : Defined services world) (reports : Reports services.bull listing)
    (done : reconcile services now listing world.state = some state) :
    ∀ row ∈ state.schedules.rows, row.isActiveRecurring = true →
      (entriesOf state.queue row.id).length = 1 := by
  intro row member isActive
  obtain ⟨isLive, recurring, active⟩ := isActiveRecurring_iff.mp isActive
  have converged :=
    (converged_next_iff reports defined.registered done).mpr (defined.amendable reports)
  obtain ⟨repeatable, one, _⟩ :=
    converged.current row (mem_dbActive.mpr ⟨member, recurring, isLive, active⟩)
  have noJobs : waitingFor state.queue row.id = [] :=
    (defined.reconcile reports done).waitingFor_recurring member recurring
  rw [entriesOf_length, noJobs, one]
  rfl

end Definitions

section Runs

variable {services : Services}

/-- The invariant of every run, as far as the one-shots have their entries. -/
structure Recovered (services : Services) (installation : Installation) : Prop where
  defined : Defined services installation.world
  durable : Durable installation

theorem recovered_start : Recovered services .start where
  defined := by
    constructor
    · exact ⟨List.nodup_nil, by simp [Installation.start, World.start, State.start, Queue.empty]⟩
    · simp [Installation.start, World.start, State.start, Queue.empty]
    · simp [Installation.start, World.start, State.start, Queue.empty]
    · simp [Installation.start, World.start]
  durable := fun reconciled => absurd reconciled (by decide)

theorem Defined.incident {installation next : Installation} {incident : Incident services.bull}
    (defined : Defined services installation.world)
    (taken : installation.step services incident = some next) : Defined services next.world := by
  cases incident with
  | act action =>
      obtain ⟨world, stepped, rfl⟩ := Option.map_eq_some_iff.mp taken
      exact defined.step stepped
  | loseQueue =>
      cases taken
      exact defined.next (List.Subset.refl _) ⟨List.nodup_nil, by simp [Queue.empty]⟩
        (by simp [Queue.empty]) (by simp [Queue.empty]) fun call => .inl
  | reconcile listing now =>
      obtain ⟨state, done, rfl⟩ := Option.map_eq_some_iff.mp taken
      exact defined.reconcile listing.2 done

theorem Recovered.step {installation next : Installation} {incident : Incident services.bull}
    (recovered : Recovered services installation)
    (queued : OneShotsQueued services installation incident)
    (taken : installation.step services incident = some next) : Recovered services next where
  defined := recovered.defined.incident taken
  durable := by
    cases incident with
    | act action =>
        obtain ⟨world, stepped, rfl⟩ := Option.map_eq_some_iff.mp taken
        exact fun reconciled => absurd reconciled Bool.false_ne_true
    | loseQueue =>
        cases taken
        exact fun reconciled => absurd reconciled Bool.false_ne_true
    | reconcile listing now =>
        obtain ⟨state, done, rfl⟩ := Option.map_eq_some_iff.mp taken
        rintro _ row member (isPending | isActive)
        · exact (oneShots_reconcile recovered.defined listing.2 done).mpr queued row member isPending
        · exact recurring_durable recovered.defined listing.2 done row member isActive

theorem queued_of_durable {installation next : Installation} {incident : Incident services.bull}
    (recovered : Recovered services installation)
    (taken : installation.step services incident = some next) (durable : Durable next) :
    OneShotsQueued services installation incident := by
  cases incident with
  | reconcile listing now =>
      obtain ⟨state, done, rfl⟩ := Option.map_eq_some_iff.mp taken
      refine (oneShots_reconcile recovered.defined listing.2 done).mp fun row member isPending => ?_
      exact durable rfl row member (.inl isPending)
  | act | loseQueue => trivial

end Runs

end Scheduler
