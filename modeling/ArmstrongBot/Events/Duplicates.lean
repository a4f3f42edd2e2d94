import ArmstrongBot.Events.Bus
import ArmstrongBot.Scheduler.Lifecycle
import ArmstrongBot.Library.StepMachine

/-! Histories of publishes of any events: which of them are dropped as duplicates. -/

namespace Events

open JsText JobQueue StepMachine

/-- A call of `publish` with the layer that dropped it, if one did. -/
structure Published where
  envelope : EventEnvelope
  delivery : DeliveryPolicy
  byGuard : Bool
  byQueue : Bool

def Published.suppressed (published : Published) : Bool := published.byGuard || published.byQueue

structure History where
  runtime : Runtime
  published : List Published

def History.start (registries : Registries) : History :=
  { runtime := .start registries, published := [] }

/-- A mark of the guard expires; a job completes, or fails and is retried or retained. -/
inductive HistoryAction
  | publish (envelope : EventEnvelope) (delivery : DeliveryPolicy)
  | expire (key : JsString)
  | work (jobId : JsString)
  | failJob (jobId : JsString)

def publishedAs (runtime : Runtime) (envelope : EventEnvelope) (delivery : DeliveryPolicy) :
    Published :=
  { envelope, delivery
    byGuard := guardSuppresses runtime envelope
    byQueue := !guardSuppresses runtime envelope && queueSuppresses runtime envelope delivery }

/-- The random id of an envelope is not the job id of an earlier one. -/
def historyStep (history : History) : HistoryAction → Option History
  | .publish envelope delivery =>
      if envelope.id ∈ history.published.map fun published => jobIdOf published.envelope then none
      else some
        { runtime := publish history.runtime envelope delivery
          published := history.published ++ [publishedAs history.runtime envelope delivery] }
  | .expire key =>
      some { history with runtime := { history.runtime with
        seen := history.runtime.seen.filter fun seen => seen != key } }
  | .work jobId => some { history with runtime := work history.runtime jobId }
  | .failJob jobId =>
      some { history with runtime := { history.runtime with
        queue := JobQueue.retry jobAttempts history.runtime.queue jobId } }

/-- A publish of the same event, whose policy is idempotent, under the same key. -/
def Repeats (earlier later : EventEnvelope) : Prop :=
  earlier.name = later.name ∧ (getEventPolicy earlier.name).idempotent = true ∧
    earlier.idempotencyKey = later.idempotencyKey ∧ earlier.idempotencyKey.isSome = true

instance (earlier later : EventEnvelope) : Decidable (Repeats earlier later) :=
  inferInstanceAs (Decidable (_ ∧ _ ∧ _ ∧ _))

def OnlyDuplicates (history : History) : Prop :=
  ∀ front published back, history.published = front ++ published :: back →
    published.suppressed = true → ∃ earlier ∈ front, Repeats earlier.envelope published.envelope

/-- A publish that finds its key marked shares it with publishes of its own event only, and one
that finds its job id in the queue has an idempotent policy and shares the id with publishes
of its own event under its key only. -/
def Unshared (history : History) : HistoryAction → Prop
  | .publish envelope delivery =>
      (guardSuppresses history.runtime envelope = true → ∀ earlier ∈ history.published,
        guardKey earlier.envelope = guardKey envelope → earlier.envelope.name = envelope.name) ∧
      (guardSuppresses history.runtime envelope = false →
        queueSuppresses history.runtime envelope delivery = true →
        (getEventPolicy envelope.name).idempotent = true ∧ ∀ earlier ∈ history.published,
          jobIdOf earlier.envelope = jobIdOf envelope →
          earlier.envelope.name = envelope.name ∧
            earlier.envelope.idempotencyKey = envelope.idempotencyKey)
  | _ => True

instance (history : History) (action : HistoryAction) : Decidable (Unshared history action) := by
  cases action <;> unfold Unshared <;> infer_instance

/-- Every mark and every retained job goes back to a publish. -/
structure Sourced (history : History) : Prop where
  marks : ∀ key ∈ history.runtime.seen,
    ∃ earlier ∈ history.published, guardKey earlier.envelope = some key
  jobs : ∀ jobId ∈ ids history.runtime.queue,
    ∃ earlier ∈ history.published, jobIdOf earlier.envelope = jobId
  duplicates : OnlyDuplicates history

theorem guardKey_some {envelope : EventEnvelope} {key : JsString}
    (found : guardKey envelope = some key) :
    (getEventPolicy envelope.name).idempotent = true ∧ envelope.idempotencyKey = some key := by
  unfold guardKey at found
  split at found
  · rename_i idempotent
    exact ⟨idempotent, (Option.filter_eq_some_iff.mp found).1⟩
  · simp at found

theorem guardSuppresses_key {runtime : Runtime} {envelope : EventEnvelope}
    (suppressed : guardSuppresses runtime envelope = true) :
    ∃ key ∈ runtime.seen, guardKey envelope = some key := by
  unfold guardSuppresses at suppressed
  split at suppressed
  · rename_i key found
    exact ⟨key, of_decide_eq_true suppressed, found⟩
  · simp at suppressed

theorem repeats_of_guard {history : History} (sourced : Sourced history)
    {envelope : EventEnvelope} {delivery : DeliveryPolicy}
    (unshared : Unshared history (.publish envelope delivery))
    (suppressed : guardSuppresses history.runtime envelope = true) :
    ∃ earlier ∈ history.published, Repeats earlier.envelope envelope := by
  obtain ⟨key, marked, found⟩ := guardSuppresses_key suppressed
  obtain ⟨earlier, member, marks⟩ := sourced.marks key marked
  have sameName := unshared.1 suppressed earlier member (marks.trans found.symm)
  obtain ⟨idempotent, keyed⟩ := guardKey_some marks
  refine ⟨earlier, member, sameName, idempotent, ?_, by rw [keyed]; rfl⟩
  rw [keyed, (guardKey_some found).2]

theorem repeats_of_queue {history : History} (sourced : Sourced history)
    {envelope : EventEnvelope} {delivery : DeliveryPolicy}
    (fresh : envelope.id ∉ history.published.map fun published => jobIdOf published.envelope)
    (unshared : Unshared history (.publish envelope delivery))
    (accepted : guardSuppresses history.runtime envelope = false)
    (suppressed : queueSuppresses history.runtime envelope delivery = true) :
    ∃ earlier ∈ history.published, Repeats earlier.envelope envelope := by
  obtain ⟨idempotent, shared⟩ := unshared.2 accepted suppressed
  have retained : jobIdOf envelope ∈ ids history.runtime.queue := by
    rw [queueSuppresses, Bool.and_eq_true] at suppressed
    exact of_decide_eq_true suppressed.2
  obtain ⟨earlier, member, sameJob⟩ := sourced.jobs _ retained
  obtain ⟨sameName, sameKey⟩ := shared earlier member sameJob
  refine ⟨earlier, member, sameName, by rwa [sameName], sameKey, ?_⟩
  -- Without a key the job id is the envelope's own id, which no earlier publish has used.
  cases keyed : envelope.idempotencyKey with
  | some key => rw [sameKey, keyed]; rfl
  | none =>
      have own : jobIdOf envelope = envelope.id := by rw [jobIdOf, keyed, Option.getD_none]
      exact absurd (List.mem_map.mpr ⟨earlier, member, sameJob.trans own⟩) fresh

theorem onlyDuplicates_snoc {history : History} (duplicates : OnlyDuplicates history)
    {runtime : Runtime} {published : Published} (justified : published.suppressed = true →
      ∃ earlier ∈ history.published, Repeats earlier.envelope published.envelope) :
    OnlyDuplicates { runtime, published := history.published ++ [published] } := by
  intro front entry back split suppressed
  rcases List.eq_nil_or_concat back with rfl | ⟨rest, last, rfl⟩
  · obtain ⟨rfl, same⟩ := List.append_inj' split (by simp)
    obtain rfl := (List.cons.inj same).1
    exact justified suppressed
  · rw [List.concat_eq_append, ← List.cons_append, ← List.append_assoc] at split
    exact duplicates front entry rest (List.append_inj' split rfl).1 suppressed

theorem sourced_publish {history : History} (sourced : Sourced history)
    {envelope : EventEnvelope} {delivery : DeliveryPolicy}
    (fresh : envelope.id ∉ history.published.map fun published => jobIdOf published.envelope)
    (unshared : Unshared history (.publish envelope delivery)) :
    Sourced
      { runtime := publish history.runtime envelope delivery
        published := history.published ++ [publishedAs history.runtime envelope delivery] } := by
  refine ⟨?_, ?_, onlyDuplicates_snoc sourced.duplicates ?_⟩
  · intro key marked
    rcases mem_seen_publish.mp marked with earlier | now
    · obtain ⟨other, member, marks⟩ := sourced.marks key earlier
      exact ⟨other, List.mem_append_left _ member, marks⟩
    · exact ⟨_, List.mem_append_right _ (List.mem_singleton_self _), now⟩
  · intro jobId retained
    rcases mem_ids_publish retained with earlier | now
    · obtain ⟨other, member, same⟩ := sourced.jobs jobId earlier
      exact ⟨other, List.mem_append_left _ member, same⟩
    · exact ⟨_, List.mem_append_right _ (List.mem_singleton_self _), now.symm⟩
  · intro suppressed
    cases byGuard : guardSuppresses history.runtime envelope with
    | true => exact repeats_of_guard sourced unshared byGuard
    | false =>
        apply repeats_of_queue sourced fresh unshared byGuard
        simpa [Published.suppressed, publishedAs, byGuard] using suppressed

theorem sourced_step {history next : History} {action : HistoryAction} (sourced : Sourced history)
    (unshared : Unshared history action) (taken : historyStep history action = some next) :
    Sourced next := by
  cases action with
  | publish envelope delivery =>
      obtain ⟨fresh, isNext⟩ := Option.ite_none_left_eq_some.mp taken
      obtain rfl := Option.some.inj isNext
      exact sourced_publish sourced fresh unshared
  | expire key =>
      obtain rfl := Option.some.inj taken
      refine ⟨fun marked member => ?_, sourced.jobs, sourced.duplicates⟩
      exact sourced.marks marked (List.mem_of_mem_filter member)
  | work jobId =>
      obtain rfl := Option.some.inj taken
      refine ⟨fun key marked => ?_, fun id retained => ?_, sourced.duplicates⟩
      · exact sourced.marks key (by rwa [seen_work] at marked)
      · exact sourced.jobs id (mem_ids_work retained)
  | failJob jobId =>
      obtain rfl := Option.some.inj taken
      refine ⟨sourced.marks, fun id retained => ?_, sourced.duplicates⟩
      apply sourced.jobs id
      rw [← ids_retry jobAttempts history.runtime.queue jobId]
      exact retained

/-- While no key is shared across events and no job id is met by an event without idempotent
policy, only duplicates are dropped. -/
theorem onlyDuplicates_always (registries : Registries) {actions : List HistoryAction}
    (guarded : Guarded historyStep Unshared (.start registries) actions) :
    Always historyStep OnlyDuplicates (.start registries) actions := by
  have initial : Sourced (.start registries) := by
    refine ⟨by simp [History.start, Runtime.start], by simp [History.start, Runtime.start, ids], ?_⟩
    intro front published back split
    simp [History.start] at split
  refine (always_of_guarded historyStep ?_ initial guarded).mono _ fun _ => Sourced.duplicates
  exact fun history action next sourced unshared taken => sourced_step sourced unshared taken

def messageDeleted (id : JsString) : EventEnvelope :=
  buildEnvelope id 0 { correlationId := js "c1", causationId := none }
    (js "discord.message.deleted") .null
    { PublishOptions.empty with idempotencyKey := some (js "m1") }

theorem repeatedDeletion_onlyDuplicates :
    Always historyStep OnlyDuplicates (.start .empty)
      [.publish (messageDeleted (js "e1")) .async, .work (js "m1"), .expire (js "m1"),
        .publish (messageDeleted (js "e2")) .async, .publish (messageDeleted (js "e3")) .async] :=
  onlyDuplicates_always .empty (by decide +kernel)

/-- The completion of a run of the recurring schedule `s1`, in its first attempt. -/
def runCompleted (id : JsString) (now : Calendar.Timestamp) : EventEnvelope :=
  Scheduler.emit .completed
    { jobId := js "s1", kind := js "digest", guildId := none, status := .completed,
      attempt := .one, scheduledFor := now, traceId := js "t1", error := none }
    id now { correlationId := js "c1", causationId := none }

/-- Two runs of the schedule complete under one key: the queue drops the second event. -/
theorem secondRun_dropped :
    ¬ Always historyStep OnlyDuplicates (.start .empty)
      [.publish (runCompleted (js "e1") 0) .async, .work (js "scheduler.job.completed:s1:1"),
        .publish (runCompleted (js "e2") 60000) .async] := by
  refine not_always _ (fun history => decide (∀ published ∈ history.published,
    published.suppressed = true →
      (getEventPolicy published.envelope.name).idempotent = true)) ?_ (by decide +kernel)
  intro history duplicates
  refine decide_eq_true fun published member suppressed => ?_
  obtain ⟨front, back, split⟩ := List.append_of_mem member
  obtain ⟨earlier, _, sameName, idempotent, _⟩ := duplicates front published back split suppressed
  rwa [← sameName]

end Events
