import ArmstrongBot.Webhooks.VerifiedOnly

/-! What a replay leads to. A run of the worker is taken apart here into its start, when the job is
picked up, and its end, so that other steps may come between the two. -/

namespace Webhooks

open JsText JobQueue StepMachine
open Calendar (Timestamp)

/-- `runs` are the deliveries whose processing has started, a delivery once for each run. -/
structure WorkState where
  state : State
  runs : List JsString

def WorkState.start : WorkState := { state := .start, runs := [] }

inductive WorkAction
  | inbound (action : InboundAction)
  | replay (guildId id : JsString)
  | pickUp (jobId : JsString)
  | settle (jobId : JsString) (outcome : Outcome) (now : Timestamp)

def WorkState.withQueue (work : WorkState) (queue : List (Job JsString JsString)) : WorkState :=
  { work with state := { work.state with queue } }

def pickUp (work : WorkState) (jobId : JsString) : Option WorkState :=
  (withStatus work.state.queue jobId .waiting).map fun job =>
    { work.withQueue (JobQueue.start work.state.queue jobId) with runs := work.runs ++ [job.data] }

/-- The end of a run does what an attempt of the job does that is made there and then. -/
def endRun (services : Services) (work : WorkState) (jobId : JsString) (outcome : Outcome)
    (now : Timestamp) : Option WorkState :=
  (withStatus work.state.queue jobId .active).bind fun _ =>
    (attempt services { work.state with queue := stall work.state.queue jobId } jobId outcome
      now).map fun state => { work with state }

def workStep (services : Services) (config : WebhooksConfig) (work : WorkState) :
    WorkAction → Option WorkState
  | .inbound (.attempt _ _ _) => none
  | .inbound action =>
      (inboundStep services config work.state action).map fun state => { work with state }
  | .replay guildId id => (replay work.state guildId id).map fun state => { work with state }
  | .pickUp jobId => pickUp work jobId
  | .settle jobId outcome now => endRun services work jobId outcome now

/-- Nothing is left to do for the delivery. -/
def AtRest (work : WorkState) (id : JsString) : Prop :=
  ∀ job ∈ work.state.queue, job.data ≠ id ∨ job.status = .completed ∨ job.status = .failed

instance (work : WorkState) (id : JsString) : Decidable (AtRest work id) :=
  inferInstanceAs (Decidable (∀ job ∈ _, _))

/-- However it goes on, a run of the delivery starts before the queue is done with it. -/
def LeadsToRun (services : Services) (config : WebhooksConfig) (work : WorkState) (id : JsString) :
    Prop :=
  ∀ actions later, run (workStep services config) work actions = some later → AtRest later id →
    work.runs.count id < later.runs.count id

def ReplayRuns (services : Services) (config : WebhooksConfig) (work : WorkState) :
    WorkAction → Prop
  | .replay guildId id => ∀ next, workStep services config work (.replay guildId id) = some next →
      LeadsToRun services config next id
  | _ => True

/-- The delivery is stored, and no run of its normalizer comes to an end without an error. -/
structure Spoiled (services : Services) (table : Table) (id : JsString) : Prop where
  stored : ∃ row ∈ table.rows, row.id = id
  throws : ∀ row ∈ table.rows, row.id = id → ∀ now, ∃ reason, normalize services row now = .error reason

/-- A run of the job is yet to start: it waits, or the run at hand is bound to fail and is not the
last one. -/
def RunsAgain (services : Services) (table : Table) (job : Job JsString JsString) : Prop :=
  job.status = .waiting ∨
    job.status = .active ∧ job.attemptsMade + 1 < inboundAttempts ∧ Spoiled services table job.data

/-- The queue has no job of the delivery, or one of which another run is yet to start. -/
def ReplayEnqueues (services : Services) (work : WorkState) : WorkAction → Prop
  | .replay _ id => ∀ job ∈ work.state.queue, job.data = id →
      RunsAgain services work.state.deliveries job
  | _ => True

/-- The jobs have distinct ids, made from the ids of their deliveries. -/
structure Queued (queue : List (Job JsString JsString)) : Prop where
  distinct : (ids queue).Nodup
  named : ∀ job ∈ queue, job.id = inboundJobId job.data

section

variable {queue : List (Job JsString JsString)}

theorem Queued.eq_of_data (queued : Queued queue) {first second : Job JsString JsString}
    (firstMember : first ∈ queue) (secondMember : second ∈ queue)
    (same : first.data = second.data) : first = second := by
  apply JobQueue.eq_of_id queued.distinct firstMember secondMember
  rw [queued.named first firstMember, queued.named second secondMember, same]

theorem Queued.add (queued : Queued queue) (id : JsString) :
    Queued (add queue (inboundJobId id) id) := by
  refine ⟨ids_add_nodup queued.distinct _ _, ?_⟩
  intro job member
  rcases mem_add.mp member with earlier | ⟨_, rfl⟩
  · exact queued.named job earlier
  · rfl

theorem Queued.change (queued : Queued queue) (jobId : JsString)
    {update : Job JsString JsString → Job JsString JsString}
    (keeps : ∀ job, (update job).id = job.id ∧ (update job).data = job.data) :
    Queued (JobQueue.change queue jobId update) := by
  refine ⟨?_, ?_⟩
  · rw [ids_change fun job => (keeps job).1]
    exact queued.distinct
  · intro job member
    rcases mem_change member with ⟨same, _⟩ | ⟨before, beforeMember, _, rfl⟩
    · exact queued.named job same
    · rw [(keeps before).1, (keeps before).2]
      exact queued.named before beforeMember

theorem Queued.start (queued : Queued queue) (jobId : JsString) :
    Queued (JobQueue.start queue jobId) :=
  queued.change jobId fun _ => ⟨rfl, rfl⟩

theorem Queued.stall (queued : Queued queue) (jobId : JsString) :
    Queued (JobQueue.stall queue jobId) :=
  queued.change jobId fun _ => ⟨rfl, rfl⟩

theorem Queued.settle (queued : Queued queue) (jobId : JsString) (returned : Bool)
    (outcome : Outcome) : Queued (settleJob queue jobId returned outcome) := by
  refine ⟨?_, ?_⟩
  · unfold settleJob
    split
    · exact queued.distinct
    · split
      · exact ids_complete_nodup queued.distinct jobId
      · rw [ids_retry]
        exact queued.distinct
  · intro job member
    obtain ⟨before, beforeMember, sameId, sameData⟩ := mem_settleJob member
    rw [← sameId, ← sameData]
    exact queued.named before beforeMember

theorem mem_settleJob_of_ne {jobId : JsString} {job : Job JsString JsString} (member : job ∈ queue)
    (apart : job.id ≠ jobId) (unfinished : job.status ≠ .completed) (returned : Bool)
    (outcome : Outcome) : job ∈ settleJob queue jobId returned outcome := by
  unfold settleJob
  split
  · exact member
  · split
    · exact mem_complete_of_ne member apart unfinished
    · exact mem_change_of_ne _ member apart

/-- A run that fails before the last one leaves a job that waits. -/
theorem mem_settleJob_failed {job : Job JsString JsString} (member : job ∈ queue)
    (waiting : job.status = .waiting) (left : job.attemptsMade + 1 < inboundAttempts)
    (outcome : Outcome) :
    ∃ later ∈ settleJob queue job.id false outcome, later.data = job.data ∧
      later.status = .waiting := by
  unfold settleJob
  split
  · exact ⟨job, member, rfl, waiting⟩
  · refine ⟨_, mem_change_of_eq _ member rfl, rfl, ?_⟩
    simp [left]

end

/-! What a step does to the queue and to the stored deliveries. -/

variable {services : Services} {config : WebhooksConfig}

theorem attempt_queue {state next : State} {jobId : JsString} {outcome : Outcome} {now : Timestamp}
    (taken : attempt services state jobId outcome now = some next) :
    ∃ job returned, withStatus state.queue jobId .waiting = some job ∧
      next.queue = settleJob state.queue jobId returned outcome ∧
      (Spoiled services state.deliveries job.data → returned = false) := by
  unfold attempt at taken
  split at taken
  · simp at taken
  · rename_i job found
    split at taken <;> obtain rfl := Option.some.inj taken
    · rename_i missing
      refine ⟨job, true, found, rfl, fun spoiled => ?_⟩
      obtain ⟨row, member, isRow⟩ := spoiled.stored
      have noRow := List.find?_eq_none.mp missing row member
      simp [isRow] at noRow
    · rename_i row isRow
      refine ⟨job, _, found, rfl, fun spoiled => ?_⟩
      obtain ⟨member, sameId⟩ := findIngressById_some isRow
      obtain ⟨reason, throws⟩ := spoiled.throws row member sameId now
      unfold processRow
      split
      · rw [throws]
      · rfl

/-- The two halves of a run make up an attempt of the job. -/
theorem attempt_halves {work : WorkState} {jobId : JsString} {outcome : Outcome} {now : Timestamp}
    {state : State} (queued : Queued work.state.queue)
    (taken : attempt services work.state jobId outcome now = some state) :
    ∃ id, run (workStep services config) work [.pickUp jobId, .settle jobId outcome now] =
      some { state, runs := work.runs ++ [id] } := by
  obtain ⟨job, returned, found, _⟩ := attempt_queue taken
  obtain ⟨member, isJob, _⟩ := withStatus_some found
  have started := withStatus_start queued.distinct member isJob
  have undone := stall_start queued.distinct found
  refine ⟨job.data, ?_⟩
  simp only [run, workStep, pickUp, found, Option.map_some, Option.bind_some, endRun,
    WorkState.withQueue, started, undone, taken]

section

variable {holds : Table → Prop}
  (inserts : ∀ {table next : Table} {row : IngressDelivery}, holds table →
    table.insert row = some next → holds next)
  (updates : ∀ {table : Table} (id : JsString) (update : StatusUpdate), holds table →
    holds (table.updateIngressStatus id update))

include updates in
theorem deliveries_foldl {table : Table} (id : JsString) (changes : List StatusUpdate)
    (held : holds table) :
    holds (changes.foldl (fun table update => table.updateIngressStatus id update) table) := by
  induction changes generalizing table with
  | nil => exact held
  | cons update rest ih => exact ih (updates id update held)

include updates in
theorem deliveries_attempt {state next : State} {jobId : JsString} {outcome : Outcome}
    {now : Timestamp} (held : holds state.deliveries)
    (taken : attempt services state jobId outcome now = some next) : holds next.deliveries := by
  unfold attempt at taken
  split at taken
  · simp at taken
  · split at taken <;> obtain rfl := Option.some.inj taken
    · exact held
    · exact deliveries_foldl updates _ _ held

include inserts updates in
theorem deliveries_inbound {state next : State} {action : InboundAction}
    (held : holds state.deliveries)
    (taken : inboundStep services config state action = some next) : holds next.deliveries := by
  cases action with
  | accept request found now =>
      obtain rfl := Option.some.inj taken
      unfold accept
      split <;> exact held
  | advance index input =>
      simp only [inboundStep] at taken
      split at taken
      · obtain ⟨⟨reached, later⟩, advanced, rfl⟩ := Option.map_eq_some_iff.mp taken
        cases advance_effect advanced with
        | quiet | deduped | queued => exact held
        | stored _ stored =>
            obtain ⟨deliveries, inserted, rfl⟩ := store_some stored
            exact inserts held inserted
        | updated => exact updates _ _ held
      · simp at taken
  | expireClaim key =>
      obtain rfl := Option.some.inj taken
      exact held
  | attempt jobId outcome now => exact deliveries_attempt updates held taken

end

theorem spoiled_insert {table next : Table} {row : IngressDelivery} {id : JsString}
    (spoiled : Spoiled services table id) (inserted : table.insert row = some next) :
    Spoiled services next id := by
  obtain ⟨stored, storedMember, isStored⟩ := spoiled.stored
  have apart := (insert_separate inserted stored storedMember).1
  rw [isStored] at apart
  refine ⟨⟨stored, ?_, isStored⟩, ?_⟩
  · rw [insert_rows inserted]
    exact List.mem_append_left _ storedMember
  · intro other member isOther
    rw [insert_rows inserted] at member
    rcases List.mem_append.mp member with earlier | newest
    · exact spoiled.throws other earlier isOther
    · obtain rfl := List.mem_singleton.mp newest
      exact absurd isOther.symm apart

theorem spoiled_update {table : Table} {id : JsString} (changed : JsString) (update : StatusUpdate)
    (spoiled : Spoiled services table id) :
    Spoiled services (table.updateIngressStatus changed update) id := by
  have same (row : IngressDelivery) :
      (if row.id = changed then update.apply row else row).id = row.id ∧
        ∀ now, normalize services (if row.id = changed then update.apply row else row) now =
          normalize services row now := by
    split <;> exact ⟨rfl, fun _ => rfl⟩
  obtain ⟨stored, storedMember, isStored⟩ := spoiled.stored
  refine ⟨⟨_, List.mem_map_of_mem storedMember, (same stored).1.trans isStored⟩, ?_⟩
  intro later member isLater now
  obtain ⟨row, rowMember, rfl⟩ := List.mem_map.mp member
  rw [(same row).2 now]
  exact spoiled.throws row rowMember ((same row).1.symm.trans isLater) now

/-- What a step may do: leave the queue as it is, add a job, start a run or end one. -/
inductive WorkEffect (services : Services) (work : WorkState) : WorkState → Prop
  | quiet {state : State} : state.queue = work.state.queue →
      (∀ id, Spoiled services work.state.deliveries id → Spoiled services state.deliveries id) →
      WorkEffect services work { work with state }
  | added {state : State} {id : JsString} :
      state.queue = add work.state.queue (inboundJobId id) id →
      state.deliveries = work.state.deliveries → WorkEffect services work { work with state }
  | pickedUp {job : Job JsString JsString} :
      withStatus work.state.queue job.id .waiting = some job →
      WorkEffect services work
        { work.withQueue (JobQueue.start work.state.queue job.id) with
          runs := work.runs ++ [job.data] }
  | settled {state : State} {job : Job JsString JsString} {outcome : Outcome} {now : Timestamp} :
      withStatus work.state.queue job.id .active = some job →
      attempt services { work.state with queue := stall work.state.queue job.id } job.id outcome
        now = some state →
      WorkEffect services work { work with state }

theorem inbound_effect {work : WorkState} {state : State} {action : InboundAction}
    (apart : ∀ jobId outcome now, action ≠ .attempt jobId outcome now)
    (taken : inboundStep services config work.state action = some state) :
    WorkEffect services work { work with state } := by
  have spoiled (id : JsString) (before : Spoiled services work.state.deliveries id) :
      Spoiled services state.deliveries id :=
    @deliveries_inbound services config (fun table => Spoiled services table id)
      (fun before => spoiled_insert before) (fun changed update => spoiled_update changed update)
      work.state state action before taken
  cases action with
  | accept request found now =>
      refine .quiet ?_ spoiled
      obtain rfl := Option.some.inj taken
      unfold accept
      split <;> rfl
  | advance index input =>
      simp only [inboundStep] at taken
      split at taken
      · obtain ⟨⟨reached, later⟩, advanced, rfl⟩ := Option.map_eq_some_iff.mp taken
        cases advance_effect advanced with
        | quiet | deduped | updated => exact .quiet rfl spoiled
        | stored _ stored =>
            refine .quiet ?_ spoiled
            obtain ⟨deliveries, _, rfl⟩ := store_some stored
            rfl
        | queued => exact .added rfl rfl
      · simp at taken
  | expireClaim key =>
      refine .quiet ?_ spoiled
      obtain rfl := Option.some.inj taken
      rfl
  | attempt jobId outcome now => exact absurd rfl (apart jobId outcome now)

theorem replay_some {state next : State} {guildId id : JsString}
    (taken : replay state guildId id = some next) :
    (∃ row ∈ state.deliveries.rows, row.id = id) ∧ next = enqueueInboundProcess state id := by
  unfold replay at taken
  split at taken
  · rename_i row found
    obtain ⟨_, isNext⟩ := Option.ite_none_right_eq_some.mp taken
    obtain rfl := Option.some.inj isNext
    obtain ⟨member, sameId⟩ := findIngressById_some found
    exact ⟨⟨row, member, sameId⟩, by rw [sameId]⟩
  · simp at taken

theorem workStep_inbound {work next : WorkState} {action : InboundAction}
    (taken : workStep services config work (.inbound action) = some next) :
    (∀ jobId outcome now, action ≠ .attempt jobId outcome now) ∧
      ∃ state, inboundStep services config work.state action = some state ∧
        { work with state } = next := by
  cases action with
  | attempt => cases taken
  | accept | advance | expireClaim => exact ⟨by simp, Option.map_eq_some_iff.mp taken⟩

theorem workStep_effect {work next : WorkState} {action : WorkAction}
    (taken : workStep services config work action = some next) : WorkEffect services work next := by
  cases action with
  | inbound action =>
      obtain ⟨apart, state, stepped, rfl⟩ := workStep_inbound taken
      exact inbound_effect apart stepped
  | replay guildId id =>
      obtain ⟨state, replayed, rfl⟩ := Option.map_eq_some_iff.mp taken
      rw [(replay_some replayed).2]
      exact .added rfl rfl
  | pickUp jobId =>
      obtain ⟨job, found, rfl⟩ := Option.map_eq_some_iff.mp taken
      obtain rfl := (withStatus_some found).2.1
      exact .pickedUp found
  | settle jobId outcome now =>
      obtain ⟨job, found, settled⟩ := Option.bind_eq_some_iff.mp taken
      obtain ⟨state, attempted, rfl⟩ := Option.map_eq_some_iff.mp settled
      obtain rfl := (withStatus_some found).2.1
      exact .settled found attempted

/-! What a replay leads to. -/

theorem queued_effect {work next : WorkState} (queued : Queued work.state.queue)
    (effect : WorkEffect services work next) : Queued next.state.queue := by
  cases effect with
  | quiet same _ =>
      rw [← same] at queued
      exact queued
  | added isAdded _ =>
      simp only [isAdded]
      exact queued.add _
  | pickedUp found => exact queued.start _
  | settled _ attempted =>
      obtain ⟨job, returned, _, isSettled, _⟩ := attempt_queue attempted
      simp only [isSettled]
      exact (queued.stall _).settle _ _ _

/-- Since there were `before` runs, another one has started or is yet to. -/
structure Pending (services : Services) (before : Nat) (id : JsString) (work : WorkState) : Prop where
  counted : before ≤ work.runs.count id
  runs : before < work.runs.count id ∨
    ∃ job ∈ work.state.queue, job.data = id ∧ RunsAgain services work.state.deliveries job

theorem runsAgain_mono {table next : Table} {job : Job JsString JsString}
    (spoiled : Spoiled services table job.data → Spoiled services next job.data)
    (runsAgain : RunsAgain services table job) : RunsAgain services next job := by
  rcases runsAgain with waiting | ⟨active, left, before⟩
  · exact .inl waiting
  · exact .inr ⟨active, left, spoiled before⟩

theorem RunsAgain.unfinished {table : Table} {job : Job JsString JsString}
    (runsAgain : RunsAgain services table job) :
    job.status ≠ .completed ∧ job.status ≠ .failed := by
  rcases runsAgain with waiting | ⟨active, _⟩
  · simp [waiting]
  · simp [active]

theorem pending_settled {work : WorkState} {state : State} {job pending : Job JsString JsString}
    {outcome : Outcome} {now : Timestamp} (queued : Queued work.state.queue)
    (member : pending ∈ work.state.queue)
    (runsAgain : RunsAgain services work.state.deliveries pending)
    (found : withStatus work.state.queue job.id .active = some job)
    (attempted : attempt services { work.state with queue := stall work.state.queue job.id } job.id
      outcome now = some state) :
    ∃ later ∈ state.queue, later.data = pending.data ∧
      RunsAgain services state.deliveries later := by
  obtain ⟨taken, returned, waits, isSettled, spoils⟩ := attempt_queue attempted
  obtain ⟨jobMember, _, active⟩ := withStatus_some found
  rw [isSettled]
  by_cases same : pending.id = job.id
  · obtain rfl := JobQueue.eq_of_id queued.distinct member jobMember same
    have stalled := withStatus_stall queued.distinct member rfl
    obtain rfl := Option.some.inj (stalled.symm.trans waits)
    rcases runsAgain with waiting | ⟨_, left, spoiled⟩
    · rw [active] at waiting
      cases waiting
    · rw [spoils spoiled]
      obtain ⟨later, laterMember, sameData, waiting⟩ := mem_settleJob_failed
        (withStatus_some stalled).1 rfl left outcome
      exact ⟨later, laterMember, sameData, .inl waiting⟩
  · have stays := mem_change_of_ne (fun job => { job with status := .waiting }) member same
    refine ⟨pending, mem_settleJob_of_ne stays same runsAgain.unfinished.1 _ _, rfl, ?_⟩
    refine runsAgain_mono (fun spoiled => ?_) runsAgain
    refine @deliveries_attempt services (fun table => Spoiled services table pending.data)
      (fun id update => spoiled_update id update) _ state job.id outcome now ?_ attempted
    exact spoiled

theorem pending_effect {work next : WorkState} {before : Nat} {id : JsString}
    (queued : Queued work.state.queue) (pending : Pending services before id work)
    (effect : WorkEffect services work next) : Pending services before id next := by
  cases effect with
  | quiet same spoiled =>
      refine ⟨pending.counted, ?_⟩
      rcases pending.runs with started | ⟨job, member, sameData, runsAgain⟩
      · exact .inl started
      · exact .inr ⟨job, same ▸ member, sameData, runsAgain_mono (spoiled _) runsAgain⟩
  | added isAdded same =>
      refine ⟨pending.counted, ?_⟩
      rcases pending.runs with started | ⟨job, member, sameData, runsAgain⟩
      · exact .inl started
      · refine .inr ⟨job, ?_, sameData, by rw [same]; exact runsAgain⟩
        rw [isAdded]
        exact mem_add.mpr (.inl member)
  | @pickedUp picked found =>
      have grows : (work.runs ++ [picked.data]).count id =
          work.runs.count id + if picked.data = id then 1 else 0 := by
        rw [List.count_append, List.count_singleton]
        simp
      have counted := pending.counted
      rcases pending.runs with started | ⟨job, member, sameData, runsAgain⟩
      · refine ⟨?_, .inl ?_⟩ <;> simp only [grows] <;> omega
      · by_cases same : job.id = picked.id
        · obtain rfl := JobQueue.eq_of_id queued.distinct member (withStatus_some found).1 same
          rw [if_pos sameData] at grows
          refine ⟨?_, .inl ?_⟩ <;> simp only [grows] <;> omega
        · refine ⟨?_, .inr ⟨job, mem_change_of_ne _ member same, sameData, runsAgain⟩⟩
          simp only [grows]
          omega
  | settled found attempted =>
      refine ⟨pending.counted, ?_⟩
      rcases pending.runs with started | ⟨job, member, sameData, runsAgain⟩
      · exact .inl started
      · obtain ⟨later, laterMember, laterData, again⟩ :=
          pending_settled queued member runsAgain found attempted
        exact .inr ⟨later, laterMember, laterData.trans sameData, again⟩

theorem leadsToRun_of_pending {work : WorkState} {id : JsString} (queued : Queued work.state.queue)
    (pending : Pending services (work.runs.count id) id work) :
    LeadsToRun services config work id := by
  intro actions later reached rests
  have always : Always (workStep services config)
      (fun work' => Queued work'.state.queue ∧ Pending services (work.runs.count id) id work')
      work actions :=
    always_of_guarded (workStep services config)
      (fun _ _ _ holds _ taken => ⟨queued_effect holds.1 (workStep_effect taken),
        pending_effect holds.1 holds.2 (workStep_effect taken)⟩)
      ⟨queued, pending⟩ (guarded_of_forall _ (fun _ _ _ => trivial) _)
  rw [← List.append_nil actions] at always
  rcases (always.reached _ reached).2.runs with started | ⟨job, member, sameData, runsAgain⟩
  · exact started
  · rcases rests job member with other | completed | failed
    · exact absurd sameData other
    · exact absurd completed runsAgain.unfinished.1
    · exact absurd failed runsAgain.unfinished.2

theorem atRest_of_job {work : WorkState} {job : Job JsString JsString}
    (queued : Queued work.state.queue) (member : job ∈ work.state.queue)
    (finished : job.status = .completed ∨ job.status = .failed) : AtRest work job.data := by
  intro other otherMember
  by_cases same : other.data = job.data
  · obtain rfl := queued.eq_of_data otherMember member same
    exact .inr finished
  · exact .inl same

section

variable {work : WorkState} {job : Job JsString JsString} {row : IngressDelivery}

variable (services) in
theorem settle_found (queued : Queued work.state.queue) (member : job ∈ work.state.queue)
    (active : job.status = .active) (rowMember : row ∈ work.state.deliveries.rows)
    (isRow : row.id = job.data) (outcome : Outcome) (now : Timestamp) :
    ∃ state, endRun services work job.id outcome now = some { work with state } ∧
      state.queue = settleJob (stall work.state.queue job.id) job.id
        (processRow services outcome now row).returned outcome := by
  have found := withStatus_of_mem queued.distinct member
  rw [active] at found
  have stalled := withStatus_stall queued.distinct member rfl
  have isFound := findIngressById_of_mem rowMember
  rw [isRow] at isFound
  simp only [endRun, found, Option.bind_some, attempt, stalled, isFound, Option.map_some]
  exact ⟨_, rfl, rfl⟩

theorem settle_exhausted (queued : Queued work.state.queue) (member : job ∈ work.state.queue)
    (active : job.status = .active) (rowMember : row ∈ work.state.deliveries.rows)
    (isRow : row.id = job.data) (exhausted : ¬ job.attemptsMade + 1 < inboundAttempts) :
    ∃ state, endRun services work job.id (.throws .find [] false) 0 = some { work with state } ∧
      AtRest { work with state } job.data := by
  obtain ⟨state, settled, isQueue⟩ :=
    settle_found services queued member active rowMember isRow
      (.throws .find [] false) 0
  refine ⟨state, settled, ?_⟩
  have returned : (processRow services (.throws .find [] false) 0 row).returned = false := rfl
  rw [returned] at isQueue
  have stalled := mem_change_of_eq (fun job => { job with status := .waiting }) member rfl
  have failed : { job with attemptsMade := job.attemptsMade + 1, status := .failed } ∈
      retry inboundAttempts (stall work.state.queue job.id) job.id := by
    have retried := mem_change_of_eq (fun job => { job with
      attemptsMade := job.attemptsMade + 1
      status := if job.attemptsMade + 1 < inboundAttempts then Status.waiting else .failed })
      stalled rfl
    rw [if_neg exhausted] at retried
    exact retried
  have queuedLater : Queued state.queue := by
    rw [isQueue]
    exact (queued.stall _).settle _ _ _
  rw [← show state.queue = retry inboundAttempts (stall work.state.queue job.id) job.id from isQueue]
    at failed
  have rests := @atRest_of_job { work with state } _ queuedLater failed (.inr rfl)
  exact rests

theorem settle_returned (queued : Queued work.state.queue) (member : job ∈ work.state.queue)
    (active : job.status = .active) (rowMember : row ∈ work.state.deliveries.rows)
    (isRow : row.id = job.data) {now : Timestamp} {event : Option IntegrationEvent}
    (passes : normalize services row now = .ok event) :
    ∃ state, endRun services work job.id .returns now = some { work with state } ∧
      AtRest { work with state } job.data := by
  obtain ⟨state, settled, isQueue⟩ :=
    settle_found services queued member active rowMember isRow .returns now
  have returned : (processRow services .returns now row).returned = true := by
    simp [processRow, passes, Outcome.reaches]
  rw [returned] at isQueue
  refine ⟨state, settled, ?_⟩
  intro other otherMember
  simp only [isQueue, settleJob, if_true] at otherMember
  rcases mem_complete otherMember with ⟨earlier, apart⟩ | ⟨_, completed⟩
  · refine .inl fun same => apart ?_
    rw [(queued.stall job.id).named other earlier, same, ← queued.named job member]
  · exact .inr (.inl completed)

end

theorem runsAgain_of_leadsToRun {work : WorkState} {id : JsString} {job : Job JsString JsString}
    (queued : Queued work.state.queue) (stored : ∃ row ∈ work.state.deliveries.rows, row.id = id)
    (leads : LeadsToRun services config work id) (member : job ∈ work.state.queue)
    (isJob : job.data = id) : RunsAgain services work.state.deliveries job := by
  by_contra last
  subst isJob
  obtain ⟨row, rowMember, isRow⟩ := stored
  have unstarted (outcome : Outcome) (now : Timestamp) : ¬ ∃ state,
      endRun services work job.id outcome now = some { work with state } ∧
        AtRest { work with state } job.data := by
    rintro ⟨state, settled, rests⟩
    have started := leads [.settle job.id outcome now] { work with state }
      ((run_cons _).mpr ⟨_, settled, rfl⟩) rests
    exact absurd started (Nat.lt_irrefl _)
  cases status : job.status with
  | waiting => exact last (.inl status)
  | completed =>
      have rests := atRest_of_job queued member (.inl status)
      exact absurd (leads [] work rfl rests) (Nat.lt_irrefl _)
  | failed =>
      have rests := atRest_of_job queued member (.inr status)
      exact absurd (leads [] work rfl rests) (Nat.lt_irrefl _)
  | active =>
      by_cases left : job.attemptsMade + 1 < inboundAttempts
      · refine last (.inr ⟨status, left, ⟨row, rowMember, isRow⟩, ?_⟩)
        intro other otherMember isOther now
        cases normal : normalize services other now with
        | error reason => exact ⟨reason, rfl⟩
        | ok event =>
            exact absurd (settle_returned queued member status otherMember isOther normal)
              (unstarted .returns now)
      · exact unstarted _ _ (settle_exhausted queued member status rowMember isRow left)

theorem replayRuns_iff {work next : WorkState} {action : WorkAction}
    (queued : Queued work.state.queue)
    (taken : workStep services config work action = some next) :
    ReplayRuns services config work action ↔ ReplayEnqueues services work action := by
  cases action with
  | inbound | pickUp | settle => exact Iff.rfl
  | replay guildId id =>
      obtain ⟨state, replayed, rfl⟩ := Option.map_eq_some_iff.mp taken
      obtain ⟨stored, rfl⟩ := replay_some replayed
      have queuedNext : Queued (enqueueInboundProcess work.state id).queue := queued.add id
      constructor
      · intro runs job member isJob
        let replayed : WorkState := { work with state := enqueueInboundProcess work.state id }
        have leads : LeadsToRun services config replayed id := runs _ taken
        have again : RunsAgain services replayed.state.deliveries job :=
          runsAgain_of_leadsToRun queuedNext stored leads (mem_add.mpr (.inl member)) isJob
        exact again
      · intro enqueues next' taken'
        obtain rfl := Option.some.inj (taken.symm.trans taken')
        refine leadsToRun_of_pending queuedNext ⟨le_refl _, .inr ?_⟩
        by_cases retained : inboundJobId id ∈ ids work.state.queue
        · obtain ⟨job, member, sameId⟩ := mem_ids.mp retained
          rw [queued.named job member] at sameId
          have isJob := inboundJobId_injective sameId
          exact ⟨job, mem_add.mpr (.inl member), isJob, enqueues job member isJob⟩
        · exact ⟨_, mem_add.mpr (.inr ⟨retained, rfl⟩), rfl, .inl rfl⟩

def deliveredToQueue : List WorkAction :=
  [accepting (signedRequest []), advancing 0 [], advancing 0 [], advancing 0 [],
    advancing 0 (js "r"), advancing 0 [], advancing 0 []].map .inbound

def processRun (outcome : Outcome) : List WorkAction :=
  [.pickUp (inboundJobId (js "r")), .settle (inboundJobId (js "r")) outcome 0]

def processFails : List WorkAction :=
  (List.replicate inboundAttempts (processRun (.throws .publish (js "down") true))).flatten

end Webhooks
