import ArmstrongBot.Events.Bus
import Mathlib.Data.List.Count

/-! Which handlers a published event reaches: the selections of the two dispatchers together. -/

namespace Events

open JsText JobQueue

/-- A publish and, where it has enqueued the event, the work on its job. -/
def publishAndWork (runtime : Runtime) (envelope : EventEnvelope) (delivery : DeliveryPolicy) :
    Runtime :=
  let published := publish runtime envelope delivery
  if delivery.usesAsync then work published (jobIdOf envelope) else published

/-- Every subscription that matches is invoked once for the envelope, and no other one is. -/
def InvokedOnce (runtime : Runtime) (envelope : EventEnvelope) (delivery : DeliveryPolicy) : Prop :=
  ∀ subscription,
    (publishAndWork runtime envelope delivery).invocations.count (envelope.id, subscription) =
      runtime.invocations.count (envelope.id, subscription) +
        (selected runtime.registries.async envelope).count subscription

/-- Each matching subscription is taken by one of the two dispatchers: under `sync` it is not
durable, under `async` the job is new, under `both` it is durable where the job is new and not
durable where it is not. -/
def OneDispatcher (runtime : Runtime) (envelope : EventEnvelope) (delivery : DeliveryPolicy) :
    Prop :=
  ∀ registration ∈ runtime.registries.async, selects envelope registration = true →
    guardSuppresses runtime envelope = false ∧
      (delivery = .sync → registration.options.durable = false) ∧
      (delivery = .async → queueSuppresses runtime envelope delivery = false) ∧
      (delivery = .both →
        registration.options.durable = !queueSuppresses runtime envelope delivery)

instance (runtime : Runtime) (envelope : EventEnvelope) (delivery : DeliveryPolicy) :
    Decidable (OneDispatcher runtime envelope delivery) :=
  inferInstanceAs (Decidable (∀ registration ∈ runtime.registries.async, _ → _))

theorem mem_selected {registrations : List Registration} {envelope : EventEnvelope}
    {subscription : Nat} :
    subscription ∈ selected registrations envelope ↔ ∃ registration ∈ registrations,
      selects envelope registration = true ∧ registration.subscription = subscription := by
  simp [selected, and_assoc]

theorem registration_unique (registries : Registries) {first second : Registration}
    (firstMember : first ∈ registries.async) (secondMember : second ∈ registries.async)
    (same : first.subscription = second.subscription) : first = second :=
  List.inj_on_of_nodup_map registries.distinct firstMember secondMember same

theorem mem_sync {registries : Registries} {registration : Registration} :
    registration ∈ registries.sync ↔
      registration ∈ registries.async ∧ registration.options.durable = false := by
  rw [registries.wired, List.mem_filter]
  simp

theorem mem_selected_sync {registries : Registries} {envelope : EventEnvelope}
    {registration : Registration} (member : registration ∈ registries.async)
    (matching : selects envelope registration = true) :
    registration.subscription ∈ selected registries.sync envelope ↔
      registration.options.durable = false := by
  rw [mem_selected]
  constructor
  · rintro ⟨other, otherMember, _, same⟩
    obtain ⟨inAsync, plain⟩ := mem_sync.mp otherMember
    rwa [← registration_unique registries inAsync member same]
  · intro plain
    exact ⟨registration, mem_sync.mpr ⟨member, plain⟩, matching, rfl⟩

theorem selected_sync_sublist (registries : Registries) (envelope : EventEnvelope) :
    (selected registries.sync envelope).Sublist (selected registries.async envelope) := by
  rw [registries.wired]
  exact (List.Sublist.filter _ List.filter_sublist).map Registration.subscription

theorem none_selected_iff (registries : Registries) (envelope : EventEnvelope) :
    (∀ subscription, (selected registries.async envelope).count subscription = 0) ↔
      ∀ registration ∈ registries.async, selects envelope registration = true → False := by
  simp only [List.count_eq_zero]
  constructor
  · intro absent registration member matching
    exact absent _ (mem_selected.mpr ⟨registration, member, matching, rfl⟩)
  · intro noMatch subscription inAsync
    obtain ⟨registration, member, matching, _⟩ := mem_selected.mp inAsync
    exact noMatch registration member matching

theorem sync_covers_iff (registries : Registries) (envelope : EventEnvelope) :
    (∀ subscription, (selected registries.sync envelope).count subscription =
        (selected registries.async envelope).count subscription) ↔
      ∀ registration ∈ registries.async, selects envelope registration = true →
        registration.options.durable = false := by
  constructor
  · intro counts registration member matching
    rw [← mem_selected_sync member matching, ← List.count_pos_iff, counts, List.count_pos_iff]
    exact mem_selected.mpr ⟨registration, member, matching, rfl⟩
  · intro plain subscription
    have same : registries.sync.filter (selects envelope) =
        registries.async.filter (selects envelope) := by
      rw [registries.wired, List.filter_filter]
      apply List.filter_congr
      intro registration member
      by_cases matching : selects envelope registration = true
      · simp [matching, plain registration member matching]
      · simp [matching]
    rw [selected, same, selected]

theorem sync_empty_iff (registries : Registries) (envelope : EventEnvelope) :
    (∀ subscription, (selected registries.sync envelope).count subscription = 0) ↔
      ∀ registration ∈ registries.async, selects envelope registration = true →
        registration.options.durable = true := by
  simp only [List.count_eq_zero]
  constructor
  · intro absent registration member matching
    have notSync := absent registration.subscription
    rw [mem_selected_sync member matching] at notSync
    simpa using notSync
  · intro durable subscription inSync
    obtain ⟨registration, member, matching, rfl⟩ :=
      mem_selected.mp ((selected_sync_sublist registries envelope).subset inSync)
    rw [mem_selected_sync member matching, durable registration member matching] at inSync
    exact absurd inSync (by decide)

/-! The invocations that a publish and the work on its job add. -/

theorem count_invoke (runtime : Runtime) (envelope : EventEnvelope)
    (registrations : List Registration) (id : JsString) (subscription : Nat) :
    (invoke runtime envelope registrations).invocations.count (id, subscription) =
      runtime.invocations.count (id, subscription) +
        if envelope.id = id then (selected registrations envelope).count subscription else 0 := by
  simp only [invoke, List.count_append]
  congr 1
  split
  · rename_i same
    rw [← same]
    exact List.count_map_of_injective _ _ (fun _ _ equal => (Prod.mk.inj equal).2) _
  · rename_i apart
    rw [List.count_eq_zero]
    intro member
    obtain ⟨_, _, equal⟩ := List.mem_map.mp member
    exact apart (Prod.mk.inj equal).1

theorem count_work_other {runtime : Runtime} {id : JsString}
    (other : ∀ job ∈ runtime.queue, job.data.id ≠ id) (jobId : JsString) (subscription : Nat) :
    (work runtime jobId).invocations.count (id, subscription) =
      runtime.invocations.count (id, subscription) := by
  unfold work
  cases found : withStatus runtime.queue jobId .waiting with
  | none => rfl
  | some job =>
      have apart := other job (withStatus_some found).1
      simp only [count_invoke, if_neg apart, Nat.add_zero]

theorem count_work_enqueued {runtime : Runtime} {envelope : EventEnvelope}
    (fresh : ∀ job ∈ runtime.queue, job.data.id ≠ envelope.id) (subscription : Nat) :
    (work (enqueue runtime envelope) (jobIdOf envelope)).invocations.count
        (envelope.id, subscription) =
      runtime.invocations.count (envelope.id, subscription) +
        if jobIdOf envelope ∈ ids runtime.queue then 0
        else (selected runtime.registries.async envelope).count subscription := by
  by_cases retained : jobIdOf envelope ∈ ids runtime.queue
  · have same : enqueue runtime envelope = runtime := by
      rw [enqueue, add, if_pos retained]
    rw [same, if_pos retained, Nat.add_zero]
    exact count_work_other fresh _ subscription
  · have found := withStatus_add retained envelope
    rw [if_neg retained]
    simp only [work, enqueue, found, count_invoke, if_true]

theorem count_publish {runtime : Runtime} {envelope : EventEnvelope} {delivery : DeliveryPolicy}
    (fresh : ∀ job ∈ runtime.queue, job.data.id ≠ envelope.id) (subscription : Nat) :
    (publishAndWork runtime envelope delivery).invocations.count (envelope.id, subscription) =
      runtime.invocations.count (envelope.id, subscription) +
        if guardSuppresses runtime envelope then 0
        else (if delivery.usesSync then
            (selected runtime.registries.sync envelope).count subscription else 0) +
          if delivery.usesAsync && !queueSuppresses runtime envelope delivery then
            (selected runtime.registries.async envelope).count subscription else 0 := by
  cases suppressed : guardSuppresses runtime envelope with
  | true =>
      simp only [publishAndWork, publish_suppressed suppressed, if_true, Nat.add_zero]
      split
      · exact count_work_other fresh _ subscription
      · rfl
  | false =>
      obtain ⟨seen, published⟩ := publish_accepted suppressed delivery
      simp only [publishAndWork, published, deliver]
      cases delivery with
      | sync =>
          simp [DeliveryPolicy.usesSync, DeliveryPolicy.usesAsync, dispatch, count_invoke]
      | async =>
          simp only [DeliveryPolicy.usesSync, DeliveryPolicy.usesAsync, queueSuppresses]
          refine (count_work_enqueued (by exact fresh) subscription).trans ?_
          by_cases retained : jobIdOf envelope ∈ ids runtime.queue <;> simp [persist, retained]
      | both =>
          simp only [DeliveryPolicy.usesSync, DeliveryPolicy.usesAsync, queueSuppresses]
          refine (count_work_enqueued (by exact fresh) subscription).trans ?_
          simp only [if_true, dispatch, count_invoke]
          by_cases retained : jobIdOf envelope ∈ ids runtime.queue <;>
            simp [persist, invoke, retained, Nat.add_assoc]

/-- An event under an id of its own reaches every matching subscription once and no other one
exactly when one dispatcher takes each of them. -/
theorem invokedOnce_iff {runtime : Runtime} {envelope : EventEnvelope} (delivery : DeliveryPolicy)
    (fresh : ∀ job ∈ runtime.queue, job.data.id ≠ envelope.id) :
    InvokedOnce runtime envelope delivery ↔ OneDispatcher runtime envelope delivery := by
  simp only [InvokedOnce, count_publish fresh, OneDispatcher, Nat.add_left_cancel_iff]
  cases guardSuppresses runtime envelope with
  | true => simpa [@eq_comm _ 0] using none_selected_iff runtime.registries envelope
  | false =>
      cases delivery with
      | sync =>
          simpa [DeliveryPolicy.usesSync, DeliveryPolicy.usesAsync] using
            sync_covers_iff runtime.registries envelope
      | async =>
          cases queueSuppresses runtime envelope .async with
          | true =>
              simpa [DeliveryPolicy.usesSync, @eq_comm _ 0] using
                none_selected_iff runtime.registries envelope
          | false => simp [DeliveryPolicy.usesSync, DeliveryPolicy.usesAsync]
      | both =>
          cases queueSuppresses runtime envelope .both with
          | true =>
              simpa [DeliveryPolicy.usesSync, DeliveryPolicy.usesAsync] using
                sync_covers_iff runtime.registries envelope
          | false =>
              simpa [DeliveryPolicy.usesSync, DeliveryPolicy.usesAsync] using
                sync_empty_iff runtime.registries envelope

/-- Every guild's handlers and one of another guild, with an event of the first guild. -/
def memberHandlers (durable : Bool) : Runtime :=
  let name := js "discord.member.joined"
  let everywhere := subscribe .empty name
    { handlerId := js "audit.ingest", guildId := none, durable }
  Runtime.start (subscribe everywhere name
    { handlerId := js "welcome", guildId := some (js "g2"), durable })

def memberJoined : EventEnvelope :=
  buildEnvelope (js "e1") 0 { correlationId := js "c1", causationId := none }
    (js "discord.member.joined") .null { PublishOptions.empty with guildId := some (js "g1") }

theorem durable_invokedOnce :
    InvokedOnce (memberHandlers true) memberJoined
      (deliveryOf memberJoined.name PublishOptions.empty) :=
  (invokedOnce_iff _ (by simp [memberHandlers, Runtime.start])).mpr (by decide +kernel)

/-- The policy of the event is `both`: its handler runs in the dispatch and again in the job. -/
theorem plainHandler_invoked_twice :
    ¬ InvokedOnce (memberHandlers false) memberJoined
      (deliveryOf memberJoined.name PublishOptions.empty) := by
  intro once
  have first := once 0
  revert first
  decide +kernel

end Events
