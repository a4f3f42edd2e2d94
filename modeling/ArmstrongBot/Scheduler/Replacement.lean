import ArmstrongBot.Scheduler.Worker

/-! Sequences of whole calls and job runs of one dedup tuple, and what scheduling it again leaves in
the table and in the queue. -/

namespace Scheduler

open JsText
open Calendar (Timestamp)

/-- What happens, one after the other: a call, which ends early where its process does, or an
attempt of a job. -/
inductive Event
  | call (request : Request) (steps : Nat) (inputs : Nat → Input)
  | runJob (jobId : JsString) (succeeds : Bool) (now : Timestamp)
  | runRepeatable (repeatKey : JsString) (succeeds willRetry : Bool) (now : Timestamp)

def Request.dedup : Request → Option DedupTuple
  | .scheduleOnce input =>
      match input.guildId, input.idempotencyKey with
      | some guildId, some idempotencyKey =>
          some { guildId, kind := input.kind, idempotencyKey }
      | _, _ => none
  | .scheduleRecurring input => input.guildId.map fun guildId =>
      { guildId, kind := input.kind, idempotencyKey := input.idempotencyKey }
  | .cancel _ _ => none

/-- Schedules are only asked for with the tuple. -/
def Event.uses (tuple : DedupTuple) : Event → Bool
  | .call (.cancel _ _) _ _ => true
  | .call request _ _ => request.dedup = some tuple
  | _ => true

section

variable (services : Services)

def occur (state : State) : Event → State
  | .call request steps inputs => (settle services steps state request.call inputs).1
  | .runJob jobId succeeds now => runJob state jobId succeeds now
  | .runRepeatable repeatKey succeeds willRetry now =>
      runRepeatable state repeatKey succeeds willRetry now

def after (history : List Event) : State := history.foldl (occur services) .start

def Request.isValid : Request → Bool
  | .scheduleOnce input => input.isValid
  | .scheduleRecurring input => input.isValid services.parser
  | .cancel _ _ => true

def Request.data (now : Timestamp) : Request → Option CreateScheduleInput
  | .scheduleOnce input => some (input.row services now)
  | .scheduleRecurring input => some (input.row services now)
  | .cancel _ _ => none

end

inductive QueueEntry
  | delayed (jobId : JsString) (job : DelayedJob)
  | repeatable (registered : Repeatable)

def QueueEntry.scheduleId : QueueEntry → JsString
  | .delayed _ job => job.data.scheduleId
  | .repeatable registered => registered.data.scheduleId

def liveRows (state : State) (tuple : DedupTuple) : List ScheduleEntity :=
  state.schedules.rows.filter fun row => row.isLive ∧ row.dedup = some tuple

def queueEntries (queue : Queue) : List QueueEntry :=
  (queue.jobs.filter fun job => job.status = .waiting).map (fun job => .delayed job.id job.data) ++
    queue.repeatables.map .repeatable

/-- The entries in the queue of the schedules with the tuple, live or not. -/
def entries (state : State) (tuple : DedupTuple) : List QueueEntry :=
  (queueEntries state.queue).filter fun entry =>
    state.schedules.rows.any fun row => row.id = entry.scheduleId ∧ row.dedup = some tuple

section

variable (services : Services)

def entryOf (entity : ScheduleEntity) (now : Timestamp) : QueueEntry :=
  match entity.type with
  | .once => .delayed (jobIdOf services entity) (delayedJob services entity now)
  | .recurring => .repeatable (repeatableOf services entity now)

def referenceOf (entity : ScheduleEntity) : JsString :=
  match entity.type with
  | .once => jobIdOf services entity
  | .recurring => services.bull.repeatKey entity.kind entity.id (repeatsOf entity)

/-- The call has succeeded, and what it asked for is the one live row and the one entry of the
tuple. -/
def Renewed (tuple : DedupTuple) (data : CreateScheduleInput) (result : State × Call) : Prop :=
  ∃ id now, result.2 = .scheduled (data.row id) ∧
    liveRows result.1 tuple = [(data.row id).withJob (referenceOf services (data.row id))] ∧
    entries result.1 tuple = [entryOf services (data.row id) now]

/-- A schedule of the tuple that is live in the table and in the queue still is. -/
def Preserved (tuple : DedupTuple) (state next : State) : Prop :=
  ∀ row ∈ liveRows state tuple, ∀ entry ∈ entries state tuple, entry.scheduleId = row.id →
    row ∈ liveRows next tuple ∧ entry ∈ entries next tuple

/-- A call to which nothing fails renews the schedule, and one that fails for any reason leaves the
earlier schedule. -/
def Replaces (tuple : DedupTuple) (state : State) (request : Request) (inputs : Nat → Input) :
    Prop :=
  (∀ data ∈ request.data services (inputs 0).now,
    Renewed services tuple data (perform services state request inputs)) ∧
  ∀ faulty, (perform services state request faulty).2 = .failed →
    Preserved tuple state (perform services state request faulty).1

/-- Nothing fails, and the database makes up new ids. -/
def Working (state : State) (inputs : Nat → Input) : Prop :=
  ∀ index, (inputs index).fails = false ∧ (inputs index).removes = true ∧
    (inputs index).id ∉ state.schedules.ids

/-- The columns of the table can hold the row, and BullMQ takes the id of its job. -/
def Storable (entity : ScheduleEntity) : Prop :=
  services.columnsHold entity = true ∧
    services.columnsHold (entity.withJob (referenceOf services entity)) = true ∧
    (entity.type = .once → services.bull.acceptsId (jobIdOf services entity) = true)

/-- No row has the tuple, soft-deleted ones included, and the one that is asked for can be stored. -/
def Available (tuple : DedupTuple) (state : State) (request : Request) (inputs : Nat → Input) :
    Prop :=
  tuple ∉ state.schedules.tuples ∧
    ∀ data ∈ request.data services (inputs 0).now, Storable services (data.row (inputs 2).id)

end

/-! Histories of one tuple. -/

section

variable {services : Services} {tuple : DedupTuple}

/-- All rows are of the tuple, and all of the queue is of a row. -/
structure Sole (tuple : DedupTuple) (state : State) : Prop where
  rows : ∀ row ∈ state.schedules.rows, row.dedup = some tuple
  jobs : ∀ job ∈ state.queue.jobs, job.data.data.scheduleId ∈ state.schedules.ids
  repeatables : ∀ repeatable ∈ state.queue.repeatables,
    repeatable.data.scheduleId ∈ state.schedules.ids

def CreateScheduleInput.dedup (data : CreateScheduleInput) : Option DedupTuple :=
  (data.row []).dedup

/-- What a call is about to insert is of the tuple, and what it has inserted is there. -/
def SoleCall (tuple : DedupTuple) (schedules : Schedules) : Call → Prop
  | .preparingOnce input => (Request.scheduleOnce input).dedup = some tuple
  | .preparingRecurring input => (Request.scheduleRecurring input).dedup = some tuple
  | .finding data _ | .unqueueing _ (some data) | .softDeleting _ (some data) | .creating data =>
      data.dedup = some tuple
  | .clearing entity | .adding entity => entity.id ∈ schedules.ids
  | _ => True

theorem sole_start : Sole tuple State.start := by
  constructor <;> simp [State.start, Schedules.empty, Queue.empty]

theorem Sole.update {state : State} (sole : Sole tuple state) (id : JsString)
    (change : ScheduleEntity → ScheduleEntity)
    (same : ∀ row, (change row).id = row.id ∧ (change row).dedup = row.dedup) :
    Sole tuple { state with schedules := state.schedules.update id change same } := by
  refine ⟨?_, ?_, ?_⟩
  · intro row member
    obtain ⟨before, beforeMember, rfl⟩ := List.mem_map.mp member
    split
    · exact (same before).2.trans (sole.rows before beforeMember)
    · exact sole.rows before beforeMember
  · intro job member
    rw [Schedules.ids_update]
    exact sole.jobs job member
  · intro repeatable member
    rw [Schedules.ids_update]
    exact sole.repeatables repeatable member

theorem Sole.requeue {state : State} (sole : Sole tuple state) {queue : Queue}
    (jobs : ∀ job ∈ queue.jobs, (∃ before ∈ state.queue.jobs, before.data = job.data) ∨
      job.data.data.scheduleId ∈ state.schedules.ids)
    (repeatables : ∀ repeatable ∈ queue.repeatables, repeatable ∈ state.queue.repeatables ∨
      repeatable.data.scheduleId ∈ state.schedules.ids) :
    Sole tuple { state with queue } := by
  refine ⟨sole.rows, ?_, ?_⟩
  · intro job member
    rcases jobs job member with ⟨before, beforeMember, same⟩ | isRow
    · rw [← same]
      exact sole.jobs before beforeMember
    · exact isRow
  · intro repeatable member
    exact (repeatables repeatable member).elim (sole.repeatables repeatable) id

theorem Sole.dequeue {state : State} (sole : Sole tuple state) {queue : Queue}
    (jobs : queue.jobs ⊆ state.queue.jobs)
    (repeatables : queue.repeatables ⊆ state.queue.repeatables) :
    Sole tuple { state with queue } :=
  sole.requeue (fun job member => Or.inl ⟨job, jobs member, rfl⟩)
    fun _ member => Or.inl (repeatables member)

theorem removeJob_subset (queue : Queue) (jobId : JsString) :
    (queue.removeJob jobId).jobs ⊆ queue.jobs := List.filter_sublist.subset

theorem removeRepeatable_subset (queue : Queue) (repeatKey : JsString) :
    (queue.removeRepeatable repeatKey).repeatables ⊆ queue.repeatables :=
  List.filter_sublist.subset

theorem removeFromQueue_sublist (queue : Queue) (entity : ScheduleEntity) :
    (removeFromQueue queue entity).jobs.Sublist queue.jobs ∧
      (removeFromQueue queue entity).repeatables.Sublist queue.repeatables := by
  unfold removeFromQueue
  split
  · exact ⟨.refl _, .refl _⟩
  · split
    · exact ⟨.refl _, List.filter_sublist⟩
    · exact ⟨List.filter_sublist, .refl _⟩

theorem removeFromQueue_subset (queue : Queue) (entity : ScheduleEntity) :
    (removeFromQueue queue entity).jobs ⊆ queue.jobs ∧
      (removeFromQueue queue entity).repeatables ⊆ queue.repeatables :=
  ⟨(removeFromQueue_sublist queue entity).1.subset, (removeFromQueue_sublist queue entity).2.subset⟩

theorem recurring_dedup (request : ScheduleRecurringInput) (now : Timestamp) :
    (request.row services now).dedup = (Request.scheduleRecurring request).dedup := by
  cases isGuild : request.guildId <;>
    simp [CreateScheduleInput.dedup, CreateScheduleInput.row, ScheduleRecurringInput.row,
      ScheduleEntity.dedup, Request.dedup, isGuild]

theorem Sole.create {state : State} (sole : Sole tuple state) {data : CreateScheduleInput}
    {id : JsString} {schedules : Schedules} (isTuple : data.dedup = some tuple)
    (created : state.schedules.create (data.row id) = some schedules) :
    Sole tuple { state with schedules } := by
  have rows := (Schedules.create_some created).2
  have persists {other : JsString} (member : other ∈ state.schedules.ids) :
      other ∈ schedules.ids := by
    rw [Schedules.ids, rows, List.map_append]
    exact List.mem_append_left _ member
  refine ⟨?_, fun job member => persists (sole.jobs job member),
    fun repeatable member => persists (sole.repeatables repeatable member)⟩
  intro row member
  rw [rows] at member
  rcases List.mem_append.mp member with earlier | isNew
  · exact sole.rows row earlier
  · rw [List.mem_singleton.mp isNew]
    exact isTuple

theorem Sole.add {state : State} (sole : Sole tuple state) {entity : ScheduleEntity}
    {now : Timestamp} {queue : Queue} (present : entity.id ∈ state.schedules.ids)
    (added : state.queue.add services.bull (jobIdOf services entity)
      (delayedJob services entity now) = some queue) : Sole tuple { state with queue } := by
  obtain ⟨_, isQueue⟩ := Option.ite_none_right_eq_some.mp added
  obtain rfl := Option.some.inj isQueue
  refine sole.requeue ?_ fun _ => Or.inl
  intro job member
  rcases JobQueue.mem_add.mp member with earlier | ⟨_, rfl⟩
  · exact Or.inl ⟨job, earlier, rfl⟩
  · exact Or.inr present

theorem Sole.addRecurring {state : State} (sole : Sole tuple state) {entity : ScheduleEntity}
    {now : Timestamp} (present : entity.id ∈ state.schedules.ids) :
    Sole tuple
      { state with queue := state.queue.addRecurring (repeatableOf services entity now) } := by
  refine sole.requeue (fun job member => Or.inl ⟨job, member, rfl⟩) ?_
  intro repeatable member
  rcases List.mem_append.mp member with earlier | isNew
  · exact Or.inl (removeRepeatable_subset _ _ earlier)
  · rw [List.mem_singleton.mp isNew]
    exact Or.inr present

theorem sole_effect {state next : State} {call later : Call} {input : Input}
    (effect : Effect services state input call next later) (sole : Sole tuple state)
    (soleCall : SoleCall tuple state.schedules call) :
    Sole tuple next ∧ SoleCall tuple next.schedules later := by
  have created {data : CreateScheduleInput} {schedules : Schedules}
      (isTuple : data.dedup = some tuple)
      (inserted : state.schedules.create (data.row input.id) = some schedules) :
      Sole tuple { state with schedules } ∧ (data.row input.id).id ∈ schedules.ids := by
    refine ⟨sole.create isTuple inserted, ?_⟩
    rw [Schedules.ids, (Schedules.create_some inserted).2]
    simp
  have deleted (existing : ScheduleEntity) :
      Sole tuple { state with schedules := state.schedules.softDelete existing.id input.now } :=
    sole.update existing.id (.cancelled input.now) fun _ => ⟨rfl, rfl⟩
  cases effect with
  | preparedOnce _ _ => exact ⟨sole, soleCall⟩
  | preparedUnkeyed _ _ => exact ⟨sole, soleCall⟩
  | @preparedRecurring request _ => exact ⟨sole, (recurring_dedup request input.now).trans soleCall⟩
  | found _ => exact ⟨sole, soleCall⟩
  | missed _ => exact ⟨sole, soleCall⟩
  | @unqueued existing data _ =>
      obtain ⟨jobs, repeatables⟩ := removeFromQueue_subset state.queue existing
      exact ⟨sole.dequeue jobs repeatables, by cases data <;> exact soleCall⟩
  | @kept _ data _ => exact ⟨sole, by cases data <;> exact soleCall⟩
  | softDeleted => exact ⟨deleted _, soleCall⟩
  | cancelled => exact ⟨deleted _, trivial⟩
  | createdOnce inserted _ => exact created soleCall inserted
  | createdRecurring inserted _ => exact created soleCall inserted
  | cleared _ => exact ⟨sole.dequeue (removeJob_subset _ _) (List.Subset.refl _), soleCall⟩
  | uncleared _ => exact ⟨sole, soleCall⟩
  | added _ isQueue => exact ⟨sole.add soleCall isQueue, trivial⟩
  | addedRecurring _ => exact ⟨sole.addRecurring soleCall, trivial⟩
  | @recorded entity bullJobId _ =>
      exact ⟨sole.update entity.id (.withJob bullJobId) fun _ => ⟨rfl, rfl⟩, trivial⟩
  | _ => exact ⟨sole, trivial⟩

theorem sole_settle {state : State} {call : Call} (sole : Sole tuple state)
    (soleCall : SoleCall tuple state.schedules call) (steps : Nat) (inputs : Nat → Input) :
    Sole tuple (settle services steps state call inputs).1 := by
  induction steps generalizing state call inputs with
  | zero => exact sole
  | succ steps ih =>
      rw [settle]
      split
      · rename_i next later taken
        obtain ⟨soleNext, soleLater⟩ := sole_effect (advance_effect taken) sole soleCall
        exact ih soleNext soleLater _
      · exact sole

theorem sole_recordAttempt {state : State} (sole : Sole tuple state) (scheduleId : JsString)
    (succeeds willRetry : Bool) (now : Timestamp) :
    Sole tuple
      { state with schedules := recordAttempt state.schedules scheduleId succeeds willRetry now } := by
  unfold recordAttempt
  split
  · exact sole.update scheduleId (.completed now) fun _ => ⟨rfl, rfl⟩
  · split
    · exact sole
    · exact sole.update scheduleId .failed fun _ => ⟨rfl, rfl⟩

theorem sole_runJob {state : State} (sole : Sole tuple state) (jobId : JsString) (succeeds : Bool)
    (now : Timestamp) : Sole tuple (runJob state jobId succeeds now) := by
  unfold runJob
  split
  · exact sole
  · rename_i job found
    have recorded := sole_recordAttempt sole job.data.data.scheduleId succeeds
      (job.attemptsMade + 1 < job.data.policy.attempts.toNat) now
    refine recorded.requeue ?_ fun _ => Or.inl
    intro after member
    refine Or.inl ?_
    cases succeeds with
    | true =>
        obtain ⟨before, beforeMember, _, same⟩ := JobQueue.mem_complete_origin member
        exact ⟨before, beforeMember, same⟩
    | false =>
        obtain ⟨before, beforeMember, _, same⟩ := JobQueue.mem_retry_origin member
        exact ⟨before, beforeMember, same⟩

theorem sole_runRepeatable {state : State} (sole : Sole tuple state) (repeatKey : JsString)
    (succeeds willRetry : Bool) (now : Timestamp) :
    Sole tuple (runRepeatable state repeatKey succeeds willRetry now) := by
  unfold runRepeatable
  split
  · exact sole
  · exact sole_recordAttempt sole _ succeeds willRetry now

theorem sole_occur {state : State} (sole : Sole tuple state) {event : Event}
    (uses : event.uses tuple = true) : Sole tuple (occur services state event) := by
  cases event with
  | call request steps inputs =>
      have soleCall : SoleCall tuple state.schedules request.call := by
        cases request with
        | cancel id guildId => trivial
        | scheduleOnce input =>
            have isTuple : (Request.scheduleOnce input).dedup = some tuple := of_decide_eq_true uses
            exact isTuple
        | scheduleRecurring input =>
            have isTuple : (Request.scheduleRecurring input).dedup = some tuple :=
              of_decide_eq_true uses
            exact isTuple
      exact sole_settle sole soleCall steps inputs
  | runJob jobId succeeds now => exact sole_runJob sole jobId succeeds now
  | runRepeatable repeatKey succeeds willRetry now =>
      exact sole_runRepeatable sole repeatKey succeeds willRetry now

variable (services) in
theorem sole_after {history : List Event} (uses : ∀ event ∈ history, event.uses tuple = true) :
    Sole tuple (after services history) := by
  have folded (state : State) (sole : Sole tuple state) :
      Sole tuple (history.foldl (occur services) state) := by
    induction history generalizing state with
    | nil => exact sole
    | cons event rest ih =>
        refine ih (fun other member => uses other (List.mem_cons_of_mem _ member)) _ ?_
        exact sole_occur sole (uses event List.mem_cons_self)
  exact folded _ sole_start

/-- Where no row has the tuple, nothing is left of it. -/
theorem Sole.blank {state : State} (sole : Sole tuple state)
    (unused : tuple ∉ state.schedules.tuples) : state.schedules.rows = [] ∧ state.queue = .empty := by
  have rows : state.schedules.rows = [] := by
    refine List.eq_nil_iff_forall_not_mem.mpr fun row member => unused ?_
    exact List.mem_filterMap.mpr ⟨row, member, sole.rows row member⟩
  have unnamed (id : JsString) : id ∉ state.schedules.ids := by
    rw [Schedules.ids, rows]
    exact List.not_mem_nil
  refine ⟨rows, ?_⟩
  cases isQueue : state.queue with
  | mk jobs repeatables =>
      have noJobs : jobs = [] := by
        refine List.eq_nil_iff_forall_not_mem.mpr fun job member => unnamed _ (sole.jobs job ?_)
        rwa [isQueue]
      have noRepeatables : repeatables = [] := by
        refine List.eq_nil_iff_forall_not_mem.mpr fun repeatable member =>
          unnamed _ (sole.repeatables repeatable ?_)
        rwa [isQueue]
      rw [noJobs, noRepeatables]
      rfl

/-! The call that schedules the tuple again. -/

theorem settle_next {state next : State} {call later : Call} {inputs : Nat → Input}
    (advanced : advance services state call (inputs 0) = some (next, later)) (steps : Nat) :
    settle services (steps + 1) state call inputs =
      settle services steps next later fun index => inputs (index + 1) := by
  rw [settle, advanced]

theorem settle_failed (state : State) (steps : Nat) (inputs : Nat → Input) :
    settle services steps state .failed inputs = (state, .failed) := by
  cases steps <;> rfl

theorem settle_scheduled (state : State) (entity : ScheduleEntity) (steps : Nat)
    (inputs : Nat → Input) :
    settle services steps state (.scheduled entity) inputs = (state, .scheduled entity) := by
  cases steps <;> rfl

variable (services) in
def enqueued (queue : Queue) (entity : ScheduleEntity) (now : Timestamp) : Queue :=
  match entity.type with
  | .once =>
      { queue with
        jobs := JobQueue.add queue.jobs (jobIdOf services entity) (delayedJob services entity now) }
  | .recurring => queue.addRecurring (repeatableOf services entity now)

variable (services) in
/-- What is taken out before a one-shot schedule is added: the job with its id. -/
def cleared (queue : Queue) (entity : ScheduleEntity) : Queue :=
  match entity.type with
  | .once => queue.removeJob (jobIdOf services entity)
  | .recurring => queue

variable (services) in
def Accepted (entity : ScheduleEntity) : Prop :=
  entity.type = .once → services.bull.acceptsId (jobIdOf services entity) = true

theorem settle_emitting {state : State} {entity : ScheduleEntity} {inputs : Nat → Input}
    (works : (inputs 0).fails = false) (steps : Nat) :
    settle services (steps + 1) state (.emitting entity) inputs = (state, .scheduled entity) := by
  have emitted : advance services state (.emitting entity) (inputs 0) =
      some (state, .scheduled entity) := by
    simp only [advance, works, Bool.false_and, Bool.false_eq_true, if_false]
  rw [settle_next emitted, settle_scheduled]

theorem settle_recording {state : State} {entity : ScheduleEntity} {inputs : Nat → Input}
    (works : ∀ index, (inputs index).fails = false) (steps : Nat) (bullJobId : JsString) :
    settle services (steps + 2) state (.recording entity bullJobId) inputs =
      if services.columnsHold (entity.withJob bullJobId) = true then
        ({ state with schedules := state.schedules.setBullJobId entity.id bullJobId },
          .scheduled entity)
      else (state, .failed) := by
  have recorded : advance services state (.recording entity bullJobId) (inputs 0) =
      if services.columnsHold (entity.withJob bullJobId) = true then
        some ({ state with schedules := state.schedules.setBullJobId entity.id bullJobId },
          .emitting entity)
      else some (state, .failed) := by
    simp only [advance, works, Bool.false_and, Bool.false_eq_true, if_false]
  split at recorded
  · rename_i held
    rw [settle_next recorded, settle_emitting (works 1), if_pos held]
  · rename_i refused
    rw [settle_next recorded, settle_failed, if_neg refused]

theorem advance_adding {state : State} {entity : ScheduleEntity} {input : Input}
    (works : input.fails = false) (accepted : Accepted services entity) :
    advance services state (.adding entity) input =
      some ({ state with queue := enqueued services state.queue entity input.now },
        .recording entity (referenceOf services entity)) := by
  cases isType : entity.type with
  | once =>
      simp only [advance, works, Bool.false_and, Bool.false_eq_true, if_false, isType, Queue.add,
        accepted isType, if_true, enqueued, referenceOf]
  | recurring =>
      simp only [advance, works, Bool.false_and, Bool.false_eq_true, if_false, isType, enqueued,
        referenceOf, repeatableOf]

theorem advance_refused {state : State} {entity : ScheduleEntity} {input : Input}
    (works : input.fails = false) (refused : ¬ Accepted services entity) :
    advance services state (.adding entity) input = some (state, .failed) := by
  obtain ⟨isOnce, rejected⟩ := Classical.not_imp.mp refused
  simp only [advance, works, Bool.false_and, Bool.false_eq_true, if_false, isOnce, Queue.add,
    rejected]

variable (services) in
theorem settle_adding (state : State) (entity : ScheduleEntity) {inputs : Nat → Input}
    (works : ∀ index, (inputs index).fails = false) (steps : Nat) :
    (Accepted services entity ∧
        services.columnsHold (entity.withJob (referenceOf services entity)) = true →
      settle services (steps + 3) state (.adding entity) inputs =
        ({ schedules := state.schedules.setBullJobId entity.id (referenceOf services entity)
           queue := enqueued services state.queue entity (inputs 0).now }, .scheduled entity)) ∧
    (¬ (Accepted services entity ∧
        services.columnsHold (entity.withJob (referenceOf services entity)) = true) →
      (settle services (steps + 3) state (.adding entity) inputs).2 = .failed) := by
  by_cases accepted : Accepted services entity
  · rw [settle_next (advance_adding (works 0) accepted),
      settle_recording fun index => works (index + 1)]
    refine ⟨fun both => by rw [if_pos both.2], fun not => ?_⟩
    rw [if_neg fun held => not ⟨accepted, held⟩]
  · rw [settle_next (advance_refused (works 0) accepted), settle_failed]
    exact ⟨fun both => absurd both.1 accepted, fun _ => rfl⟩

variable (services) in
theorem settle_clearing (state : State) (entity : ScheduleEntity) {input : Input}
    (works : input.fails = false) (removes : input.removes = true) :
    advance services state (.clearing entity) input =
      some ({ state with queue := state.queue.removeJob (jobIdOf services entity) },
        .adding entity) := by
  simp only [advance, works, removes, Bool.false_and, Bool.false_eq_true, if_false, if_true]

variable (services) in
/-- A row that the table admits and that can be stored comes to be scheduled, and no other. -/
theorem settle_creating (state : State) (data : CreateScheduleInput) {inputs : Nat → Input}
    (works : ∀ index, (inputs index).fails = false ∧ (inputs index).removes = true) (steps : Nat) :
    (state.schedules.Admits (data.row (inputs 0).id) ∧ Storable services (data.row (inputs 0).id) →
      ∃ schedules now, state.schedules.create (data.row (inputs 0).id) = some schedules ∧
        settle services (steps + 5) state (.creating data) inputs =
          ({ schedules := schedules.setBullJobId (data.row (inputs 0).id).id
              (referenceOf services (data.row (inputs 0).id))
             queue := enqueued services (cleared services state.queue (data.row (inputs 0).id))
              (data.row (inputs 0).id) now },
            .scheduled (data.row (inputs 0).id))) ∧
    (¬ (state.schedules.Admits (data.row (inputs 0).id) ∧
        Storable services (data.row (inputs 0).id)) →
      (settle services (steps + 5) state (.creating data) inputs).2 = .failed) := by
  have fails (index : Nat) : (inputs index).fails = false := (works index).1
  generalize isEntity : data.row (inputs 0).id = entity
  by_cases admits : state.schedules.Admits entity ∧ services.columnsHold entity = true
  · obtain ⟨schedules, inserted, _⟩ := Schedules.create_of_admits admits.1
    have storable : state.schedules.Admits entity ∧ Storable services entity ↔
        Accepted services entity ∧
          services.columnsHold (entity.withJob (referenceOf services entity)) = true :=
      ⟨fun both => ⟨both.2.2.2, both.2.2.1⟩, fun both => ⟨admits.1, admits.2, both.2, both.1⟩⟩
    rw [storable]
    cases isType : entity.type with
    | once =>
        have created : advance services state (.creating data) (inputs 0) =
            some ({ state with schedules }, .clearing entity) := by
          simp only [advance, fails, Bool.false_and, Bool.false_eq_true, if_false, isEntity,
            admits.2, if_true, inserted, isType]
        have advanced := settle_clearing services { state with schedules } entity (fails 1)
          (works 1).2
        rw [settle_next created, settle_next advanced]
        obtain ⟨settled, failed⟩ := settle_adding services
          { schedules, queue := state.queue.removeJob (jobIdOf services entity) } entity
          (fun index => fails (index + 2)) steps
        refine ⟨fun both => ⟨schedules, (inputs 2).now, inserted, ?_⟩, failed⟩
        rw [cleared, isType]
        exact settled both
    | recurring =>
        have created : advance services state (.creating data) (inputs 0) =
            some ({ state with schedules }, .adding entity) := by
          simp only [advance, fails, Bool.false_and, Bool.false_eq_true, if_false, isEntity,
            admits.2, if_true, inserted, isType]
        rw [settle_next created]
        obtain ⟨settled, failed⟩ := settle_adding services { state with schedules } entity
          (fun index => fails (index + 1)) (steps + 1)
        refine ⟨fun both => ⟨schedules, (inputs 1).now, inserted, ?_⟩, failed⟩
        rw [cleared, isType]
        exact settled both
  · have refused : (if services.columnsHold entity then state.schedules.create entity else none) =
        none := by
      split
      · rename_i held
        exact dif_neg fun admitted => admits ⟨admitted, held⟩
      · rfl
    have created : advance services state (.creating data) (inputs 0) = some (state, .failed) := by
      simp only [advance, fails, Bool.false_and, Bool.false_eq_true, if_false, isEntity, refused]
    refine ⟨fun both => absurd ⟨both.1, both.2.1⟩ admits, fun _ => ?_⟩
    rw [settle_next created, settle_failed]

theorem advance_preparing (state : State) {request : Request} {input : Input}
    (isTuple : request.dedup = some tuple) (valid : request.isValid services = true)
    (works : input.fails = false) :
    ∃ data, request.data services input.now = some data ∧ data.dedup = some tuple ∧
      data.guildId = some tuple.guildId ∧ data.kind = tuple.kind ∧
      advance services state request.call input =
        some (state, .finding data tuple.idempotencyKey) := by
  cases request with
  | cancel id guildId => cases isTuple
  | scheduleRecurring requested =>
      obtain ⟨guildId, isGuild, rfl⟩ := Option.map_eq_some_iff.mp isTuple
      refine ⟨_, rfl, (recurring_dedup requested input.now).trans isTuple, isGuild, rfl, ?_⟩
      have valid : requested.isValid services.parser = true := valid
      simp only [Request.call, advance, works, Bool.false_and, Bool.false_eq_true, if_false, valid,
        if_true]
  | scheduleOnce requested =>
      have valid : requested.isValid = true := valid
      have nonempty : requested.idempotencyKey ≠ some [] := by
        simp only [ScheduleOnceInput.isValid, Bool.and_eq_true, decide_eq_true_eq] at valid
        exact valid.1.1.2
      cases isGuild : requested.guildId with
      | none => simp [Request.dedup, isGuild] at isTuple
      | some guildId =>
          cases isKey : requested.idempotencyKey with
          | none => simp [Request.dedup, isGuild, isKey] at isTuple
          | some key =>
              simp only [Request.dedup, isGuild, isKey, Option.some.injEq] at isTuple
              subst isTuple
              refine ⟨_, rfl, ?_, isGuild, rfl, ?_⟩
              · simp [CreateScheduleInput.dedup, CreateScheduleInput.row, ScheduleOnceInput.row,
                  ScheduleEntity.dedup, isGuild, isKey]
              · have kept : (some key).filter (fun key => key ≠ []) = some key := by
                  rw [isKey] at nonempty
                  simpa using nonempty
                simp only [Request.call, advance, works, Bool.false_and, Bool.false_eq_true,
                  if_false, valid, if_true, isKey, kept]

variable (services) in
/-- What gives way is taken out of the queue and soft-deleted before the row is inserted. -/
theorem settle_finding (state : State) (data : CreateScheduleInput) (key : JsString)
    {inputs : Nat → Input} (works : ∀ index, (inputs index).fails = false) (steps : Nat) :
    ∃ next shift remaining, (settle services (steps + 8) state (.finding data key) inputs) =
        settle services (remaining + 5) next (.creating data) (fun index => inputs (index + shift)) ∧
      next.schedules.tuples = state.schedules.tuples ∧
      (state.schedules.findByDedup data.guildId data.kind key = none → next = state ∧ shift = 1) := by
  cases found : (state.schedules.findByDedup data.guildId data.kind key).filter (givesWay data) with
  | none =>
      have advanced : advance services state (.finding data key) (inputs 0) =
          some (state, .creating data) := by
        simp only [advance, works, Bool.false_and, Bool.false_eq_true, if_false, found]
      exact ⟨state, 1, steps + 2, settle_next advanced _, rfl, fun _ => ⟨rfl, rfl⟩⟩
  | some existing =>
      have advanced : advance services state (.finding data key) (inputs 0) =
          some (state, .unqueueing existing (some data)) := by
        simp only [advance, works, Bool.false_and, Bool.false_eq_true, if_false, found]
      let queue := if (inputs 1).removes then removeFromQueue state.queue existing else state.queue
      have unqueued : advance services state (.unqueueing existing (some data)) (inputs 1) =
          some ({ state with queue }, .softDeleting existing (some data)) := by
        simp only [advance, works, Bool.false_and, Bool.false_eq_true, if_false, queue]
      let schedules := state.schedules.softDelete existing.id (inputs 2).now
      have deleted : advance services { state with queue } (.softDeleting existing (some data))
          (inputs 2) = some ({ schedules, queue }, .creating data) := by
        simp only [advance, works, Bool.false_and, Bool.false_eq_true, if_false, schedules]
      refine ⟨{ schedules, queue }, 3, steps, ?_, Schedules.tuples_softDelete _ _ _,
        fun nothing => ?_⟩
      · rw [settle_next advanced, settle_next unqueued, settle_next deleted]
      · rw [nothing] at found
        cases found

theorem findByDedup_unused {schedules : Schedules} (unused : tuple ∉ schedules.tuples) :
    schedules.findByDedup (some tuple.guildId) tuple.kind tuple.idempotencyKey = none := by
  refine Option.eq_none_iff_forall_ne_some.mpr fun row found => unused ?_
  obtain ⟨member, isGuild, isKind, isKey, _⟩ := Schedules.findByDedup_some found
  refine List.mem_filterMap.mpr ⟨row, member, ?_⟩
  simp only [ScheduleEntity.dedup, isGuild, isKey, isKind]

theorem queueEntries_first (entity : ScheduleEntity) (now : Timestamp) :
    queueEntries (enqueued services (cleared services .empty entity) entity now) =
      [entryOf services entity now] := by
  cases isType : entity.type <;>
    simp [queueEntries, enqueued, cleared, isType, entryOf, Queue.empty, Queue.removeJob,
      Queue.addRecurring, Queue.removeRepeatable, JobQueue.add, JobQueue.ids]

theorem entryOf_scheduleId (entity : ScheduleEntity) (now : Timestamp) :
    (entryOf services entity now).scheduleId = entity.id := by
  cases isType : entity.type <;> simp [entryOf, isType, QueueEntry.scheduleId, repeatableOf,
    delayedJob, jobData]

theorem renewed_first {state : State} {data : CreateScheduleInput} {schedules : Schedules}
    {id : JsString} {now : Timestamp} (noRows : state.schedules.rows = [])
    (isTuple : data.dedup = some tuple)
    (inserted : state.schedules.create (data.row id) = some schedules) :
    Renewed services tuple data
      ({ schedules := schedules.setBullJobId (data.row id).id (referenceOf services (data.row id))
         queue := enqueued services (cleared services .empty (data.row id)) (data.row id) now },
        .scheduled (data.row id)) := by
  have rows : (schedules.setBullJobId (data.row id).id (referenceOf services (data.row id))).rows =
      [(data.row id).withJob (referenceOf services (data.row id))] := by
    rw [Schedules.setBullJobId_rows, (Schedules.create_some inserted).2, noRows]
    simp
  have isDedup : ((data.row id).withJob (referenceOf services (data.row id))).dedup = some tuple :=
    isTuple
  have isLive : ((data.row id).withJob (referenceOf services (data.row id))).isLive = true := rfl
  have sameId : ((data.row id).withJob (referenceOf services (data.row id))).id = (data.row id).id :=
    rfl
  refine ⟨id, now, rfl, ?_, ?_⟩
  · rw [liveRows, rows]
    simp [isLive, isDedup]
  · rw [entries, queueEntries_first, rows]
    simp [entryOf_scheduleId, isDedup, sameId]

/-- After any history of a tuple, a call that schedules it again replaces what was there exactly
where there was nothing, and where the row can be stored. -/
theorem replaces_iff (services : Services) (tuple : DedupTuple) (history : List Event)
    (request : Request) (inputs : Nat → Input)
    (uses : ∀ event ∈ history, event.uses tuple = true) (isTuple : request.dedup = some tuple)
    (valid : request.isValid services = true) (works : Working (after services history) inputs) :
    Replaces services tuple (after services history) request inputs ↔
      Available services tuple (after services history) request inputs := by
  have sole := sole_after services uses
  generalize after services history = state at works sole ⊢
  have fails (index : Nat) : (inputs index).fails = false := (works index).1
  obtain ⟨data, isData, dataTuple, isGuild, isKind, prepared⟩ :=
    advance_preparing state isTuple valid (fails 0)
  obtain ⟨next, shift, remaining, found, sameTuples, direct⟩ :=
    settle_finding services state data tuple.idempotencyKey (fun index => fails (index + 1)) 0
  rw [isGuild, isKind] at direct
  have performed : perform services state request inputs = settle services (remaining + 5) next
      (.creating data) fun index => inputs (index + shift + 1) := by
    rw [perform, callSteps, settle_next prepared, found]
  obtain ⟨settled, failed⟩ := settle_creating services next data
    (fun index => ⟨fails (index + shift + 1), (works (index + shift + 1)).2.1⟩) remaining
  constructor
  · intro replaces
    obtain ⟨id, now, succeeded, _⟩ := replaces.1 data isData
    have admits : next.schedules.Admits (data.row (inputs (0 + shift + 1)).id) ∧
        Storable services (data.row (inputs (0 + shift + 1)).id) := by
      by_contra refused
      have isFailed := failed refused
      rw [← performed, succeeded] at isFailed
      cases isFailed
    have unused : tuple ∉ state.schedules.tuples := by
      rw [← sameTuples]
      exact admits.1.2 tuple dataTuple
    refine ⟨unused, fun other isOther => ?_⟩
    obtain rfl := Option.some.inj (isData.symm.trans isOther)
    obtain ⟨_, rfl⟩ := direct (findByDedup_unused unused)
    exact admits.2
  · rintro ⟨unused, storable⟩
    obtain ⟨noRows, noQueue⟩ := sole.blank unused
    obtain ⟨rfl, rfl⟩ := direct (findByDedup_unused unused)
    refine ⟨fun other isOther => ?_, fun faulty _ row member => ?_⟩
    · obtain rfl := Option.some.inj (isData.symm.trans isOther)
      have admits : next.schedules.Admits (data.row (inputs 2).id) := by
        refine ⟨(works 2).2.2, fun other same => ?_⟩
        obtain rfl := Option.some.inj (dataTuple.symm.trans same)
        exact unused
      obtain ⟨schedules, now, inserted, result⟩ := settled ⟨admits, storable data isData⟩
      rw [performed, result, noQueue]
      exact renewed_first noRows dataTuple inserted
    · rw [liveRows, noRows] at member
      cases member

end

/-- A custom job id may have no colon or two of them. -/
def plainServices : Services :=
  { parser :=
      { prev := fun _ _ time => time, next := fun _ _ _ => none, isValidCron := fun _ _ => true }
    bull :=
      { acceptsId := fun id => [0, 2].contains (id.filter fun unit => (js ":").contains unit).length
        repeatKey := fun name id _ => name ++ js ":" ++ id }
    sha256Hex := id, columnsHold := fun _ => true
    global := { defaultMaxAttempts := 5, defaultBackoffMs := 5000, backoffStrategy := .exponential }
    forGuild := fun _ => { timezone := js "UTC", maintenanceWindows := [] } }

def reminder (delayMs : Int) : Request :=
  .scheduleOnce
    { guildId := some (js "g"), kind := js "remind", payload := .bool true, runAt := none
      delayMs := some delayMs, idempotencyKey := some (js "k"), deferrableInMaintenance := none
      maxAttempts := none }

def reminderTuple : DedupTuple :=
  { guildId := js "g", kind := js "remind", idempotencyKey := js "k" }

def working (id : String) : Nat → Input := fun _ =>
  { id := js id, now := 0, fails := false, removes := true }

/-- A tuple is scheduled for the first time, after a `cancel` of an unknown id. -/
theorem replaces_first :
    Replaces plainServices reminderTuple
      (after plainServices [.call (.cancel (js "a") none) callSteps (working "a")]) (reminder 1000)
      (working "a") := by
  have fresh : js "a" ∉ (after plainServices
      [.call (.cancel (js "a") none) callSteps (working "a")]).schedules.ids := by decide +kernel
  refine (replaces_iff plainServices reminderTuple _ (reminder 1000) (working "a") (by decide) rfl
    (by decide +kernel) fun _ => ⟨rfl, rfl, fresh⟩).mpr ⟨by decide +kernel, fun data isData => ?_⟩
  obtain rfl := Option.some.inj isData
  exact ⟨rfl, rfl, fun _ => by decide +kernel⟩

/-- After a second `scheduleOnce` of a key, neither schedule is live. -/
theorem second_schedule_fails :
    ¬ ∀ (services : Services) (tuple : DedupTuple) (history : List Event) (request : Request)
      (inputs : Nat → Input), (∀ event ∈ history, event.uses tuple = true) →
      request.dedup = some tuple → request.isValid services = true →
      Working (after services history) inputs →
      Replaces services tuple (after services history) request inputs := by
  intro all
  have fresh : js "b" ∉ (after plainServices
      [.call (reminder 1000) callSteps (working "a")]).schedules.ids := by decide +kernel
  have replaces := all plainServices reminderTuple [.call (reminder 1000) callSteps (working "a")]
    (reminder 2000) (working "b") (by decide) rfl (by decide +kernel) fun _ => ⟨rfl, rfl, fresh⟩
  obtain ⟨_, _, _, isLive, _⟩ := replaces.1 _ rfl
  have noneLive : (liveRows (perform plainServices (after plainServices
      [.call (reminder 1000) callSteps (working "a")]) (reminder 2000) (working "b")).1
      reminderTuple).length = 0 := by decide +kernel
  rw [isLive] at noneLive
  cases noneLive

end Scheduler
