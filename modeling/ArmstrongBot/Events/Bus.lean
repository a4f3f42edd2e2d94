import ArmstrongBot.Events.Envelope
import ArmstrongBot.Library.JobQueue

/-! `EventBusService` with its two dispatchers, in runs in which no step fails. -/

namespace Events

open JsText JobQueue

structure SubscribeOptions where
  handlerId : JsString
  guildId : Option JsString
  durable : Bool
  deriving DecidableEq

/-- A handler in a registry; `subscription` numbers the call of `subscribe` that put it there. -/
structure Registration where
  subscription : Nat
  name : JsString
  options : SubscribeOptions
  deriving DecidableEq

/-- The registries of the two dispatchers, each in the order of subscription. -/
structure Registries where
  sync : List Registration
  async : List Registration
  subscribed : Nat
  wired : sync = async.filter fun registration => !registration.options.durable
  numbered : ∀ registration ∈ async, registration.subscription < subscribed
  distinct : (async.map Registration.subscription).Nodup

def Registries.empty : Registries :=
  { sync := [], async := [], subscribed := 0, wired := rfl, numbered := by simp, distinct := by simp }

/-- `subscribe`: a durable handler goes to the asynchronous dispatcher, any other one to both. -/
def subscribe (registries : Registries) (name : JsString) (options : SubscribeOptions) : Registries :=
  let registration : Registration := { subscription := registries.subscribed, name, options }
  { sync := if options.durable then registries.sync else registries.sync ++ [registration]
    async := registries.async ++ [registration]
    subscribed := registries.subscribed + 1
    wired := by
      rw [List.filter_append, ← registries.wired]
      cases durable : options.durable <;> simp [registration, durable]
    numbered := by
      intro other member
      rcases List.mem_append.mp member with earlier | newest
      · exact Nat.lt_succ_of_lt (registries.numbered other earlier)
      · rw [List.mem_singleton.mp newest]
        exact Nat.lt_succ_self _
    distinct := by
      rw [List.map_append]
      refine List.nodup_append.mpr ⟨registries.distinct, by simp, ?_⟩
      intro earlier member newest isNewest
      obtain ⟨other, otherMember, rfl⟩ := List.mem_map.mp member
      have below := registries.numbered other otherMember
      have same : newest = registries.subscribed := by simpa using isNewest
      omega }

def unsubscribe (registries : Registries) (subscription : Nat) : Registries :=
  let stays (registration : Registration) : Bool := registration.subscription != subscription
  { registries with
    sync := registries.sync.filter stays
    async := registries.async.filter stays
    wired := by
      rw [registries.wired, List.filter_filter, List.filter_filter]
      exact List.filter_congr fun _ _ => Bool.and_comm _ _
    numbered := fun registration member =>
      registries.numbered registration (List.mem_of_mem_filter member)
    distinct := registries.distinct.sublist (List.filter_sublist.map Registration.subscription) }

/-! Which subscriptions there are. -/

def Registries.live (registries : Registries) (subscription : Nat) : Prop :=
  subscription ∈ registries.async.map Registration.subscription

instance (registries : Registries) (subscription : Nat) : Decidable (registries.live subscription) :=
  inferInstanceAs (Decidable (_ ∈ _))

theorem Registries.live_lt {registries : Registries} {subscription : Nat}
    (live : registries.live subscription) : subscription < registries.subscribed := by
  obtain ⟨registration, member, rfl⟩ := List.mem_map.mp live
  exact registries.numbered registration member

theorem live_subscribe {registries : Registries} {name : JsString} {options : SubscribeOptions}
    {subscription : Nat} :
    (subscribe registries name options).live subscription ↔
      registries.live subscription ∨ subscription = registries.subscribed := by
  simp [Registries.live, subscribe]

theorem live_unsubscribe {registries : Registries} {ended subscription : Nat} :
    (unsubscribe registries ended).live subscription ↔
      registries.live subscription ∧ subscription ≠ ended := by
  simp only [Registries.live, unsubscribe, List.mem_map, List.mem_filter, bne_iff_ne]
  constructor
  · rintro ⟨registration, ⟨member, stays⟩, rfl⟩
    exact ⟨⟨registration, member, rfl⟩, stays⟩
  · rintro ⟨⟨registration, member, rfl⟩, stays⟩
    exact ⟨registration, ⟨member, stays⟩, rfl⟩

theorem live_unsubscribeAll {ended : List Nat} {registries : Registries} {subscription : Nat} :
    (ended.foldl unsubscribe registries).live subscription ↔
      registries.live subscription ∧ subscription ∉ ended := by
  induction ended generalizing registries with
  | nil => simp
  | cons first rest ih =>
      rw [List.foldl_cons, ih, live_unsubscribe, List.mem_cons, not_or, and_assoc]

theorem subscribed_unsubscribeAll {ended : List Nat} {registries : Registries} :
    (ended.foldl unsubscribe registries).subscribed = registries.subscribed := by
  induction ended generalizing registries with
  | nil => rfl
  | cons first rest ih =>
      rw [List.foldl_cons, ih]
      rfl

/-- The guild filter of a handler; an empty one filters nothing. -/
def ofGuild (envelope : EventEnvelope) (registration : Registration) : Bool :=
  match registration.options.guildId with
  | none => true
  | some guildId => guildId == [] || envelope.guildId == some guildId

def selects (envelope : EventEnvelope) (registration : Registration) : Bool :=
  registration.name == envelope.name && ofGuild envelope registration

def selected (registrations : List Registration) (envelope : EventEnvelope) : List Nat :=
  (registrations.filter (selects envelope)).map Registration.subscription

structure Runtime where
  registries : Registries
  seen : List JsString
  eventLog : List (EventEnvelope × DeliveryPolicy)
  queue : List (Job JsString EventEnvelope)
  invocations : List (JsString × Nat)

def Runtime.start (registries : Registries) : Runtime :=
  { registries, seen := [], eventLog := [], queue := [], invocations := [] }

/-! The options that `enqueue` gives a job: its attempts, and how many completed jobs are kept. -/

def jobAttempts : Nat := 5

def completedLimit : Nat := 1000

def isDuplicate (runtime : Runtime) (key : JsString) : Bool := decide (key ∈ runtime.seen)

def markSeen (runtime : Runtime) (key : JsString) : Runtime :=
  { runtime with seen := runtime.seen ++ [key] }

def persist (runtime : Runtime) (envelope : EventEnvelope) (delivery : DeliveryPolicy) : Runtime :=
  { runtime with eventLog := runtime.eventLog ++ [(envelope, delivery)] }

def invoke (runtime : Runtime) (envelope : EventEnvelope) (registrations : List Registration) :
    Runtime :=
  { runtime with
    invocations := runtime.invocations ++
      (selected registrations envelope).map fun subscription => (envelope.id, subscription) }

def dispatch (runtime : Runtime) (envelope : EventEnvelope) : Runtime :=
  invoke runtime envelope runtime.registries.sync

def enqueue (runtime : Runtime) (envelope : EventEnvelope) : Runtime :=
  { runtime with queue := add runtime.queue (jobIdOf envelope) envelope }

/-- The part of `publish` behind the idempotency guard. -/
def deliver (runtime : Runtime) (envelope : EventEnvelope) (delivery : DeliveryPolicy) : Runtime :=
  let persisted := if delivery.usesAsync then persist runtime envelope delivery else runtime
  let dispatched := if delivery.usesSync then dispatch persisted envelope else persisted
  if delivery.usesAsync then enqueue dispatched envelope else dispatched

def publish (runtime : Runtime) (envelope : EventEnvelope) (delivery : DeliveryPolicy) : Runtime :=
  match guardKey envelope with
  | some key =>
      if isDuplicate runtime key then runtime
      else deliver (markSeen runtime key) envelope delivery
  | none => deliver runtime envelope delivery

/-- The worker of the asynchronous dispatcher takes a job and runs its handlers. -/
def work (runtime : Runtime) (jobId : JsString) : Runtime :=
  match withStatus runtime.queue jobId .waiting with
  | some job =>
      { (invoke runtime job.data runtime.registries.async) with
        queue := complete completedLimit runtime.queue jobId }
  | none => runtime

/-- The guard has seen the key of a publish, or the queue retains a job with its id. -/
def guardSuppresses (runtime : Runtime) (envelope : EventEnvelope) : Bool :=
  match guardKey envelope with
  | some key => isDuplicate runtime key
  | none => false

def queueSuppresses (runtime : Runtime) (envelope : EventEnvelope) (delivery : DeliveryPolicy) :
    Bool :=
  delivery.usesAsync && decide (jobIdOf envelope ∈ ids runtime.queue)

theorem publish_suppressed {runtime : Runtime} {envelope : EventEnvelope}
    (suppressed : guardSuppresses runtime envelope = true) (delivery : DeliveryPolicy) :
    publish runtime envelope delivery = runtime := by
  cases found : guardKey envelope with
  | none => simp [guardSuppresses, found] at suppressed
  | some key =>
      have seen : isDuplicate runtime key = true := by
        simpa only [guardSuppresses, found] using suppressed
      simp only [publish, found, seen, if_true]

theorem publish_accepted {runtime : Runtime} {envelope : EventEnvelope}
    (accepted : guardSuppresses runtime envelope = false) (delivery : DeliveryPolicy) :
    ∃ seen, publish runtime envelope delivery =
      deliver { runtime with seen } envelope delivery := by
  cases found : guardKey envelope with
  | none => exact ⟨runtime.seen, by simp only [publish, found]⟩
  | some key =>
      have unseen : isDuplicate runtime key = false := by
        simpa only [guardSuppresses, found] using accepted
      exact ⟨runtime.seen ++ [key], by simp [publish, found, unseen, markSeen]⟩

/-! What publishes and jobs do to the marks of the guard and the ids in the queue. -/

theorem seen_deliver (runtime : Runtime) (envelope : EventEnvelope) (delivery : DeliveryPolicy) :
    (deliver runtime envelope delivery).seen = runtime.seen := by
  cases delivery <;> rfl

theorem queue_deliver (runtime : Runtime) (envelope : EventEnvelope) (delivery : DeliveryPolicy) :
    (deliver runtime envelope delivery).queue =
      if delivery.usesAsync then add runtime.queue (jobIdOf envelope) envelope
      else runtime.queue := by
  cases delivery <;> rfl

theorem mem_seen_publish {runtime : Runtime} {envelope : EventEnvelope} {delivery : DeliveryPolicy}
    {key : JsString} :
    key ∈ (publish runtime envelope delivery).seen ↔
      key ∈ runtime.seen ∨ guardKey envelope = some key := by
  cases found : guardKey envelope with
  | none => simp [publish, found, seen_deliver]
  | some marked =>
      by_cases seen : marked ∈ runtime.seen
      · simp only [publish, found, isDuplicate, seen, decide_true, if_true, Option.some.injEq]
        exact ⟨Or.inl, fun member => member.elim id fun same => same ▸ seen⟩
      · simp [publish, found, isDuplicate, seen, seen_deliver, markSeen, eq_comm]

theorem mem_ids_deliver {runtime : Runtime} {envelope : EventEnvelope} {delivery : DeliveryPolicy}
    {jobId : JsString} (member : jobId ∈ ids (deliver runtime envelope delivery).queue) :
    jobId ∈ ids runtime.queue ∨ jobId = jobIdOf envelope := by
  rw [queue_deliver] at member
  split at member
  · exact mem_ids_add.mp member
  · exact Or.inl member

theorem mem_ids_publish {runtime : Runtime} {envelope : EventEnvelope} {delivery : DeliveryPolicy}
    {jobId : JsString} (member : jobId ∈ ids (publish runtime envelope delivery).queue) :
    jobId ∈ ids runtime.queue ∨ jobId = jobIdOf envelope := by
  cases suppressed : guardSuppresses runtime envelope with
  | true =>
      rw [publish_suppressed suppressed] at member
      exact Or.inl member
  | false =>
      obtain ⟨seen, published⟩ := publish_accepted suppressed delivery
      rw [published] at member
      have retained := mem_ids_deliver member
      exact retained

theorem seen_work (runtime : Runtime) (jobId : JsString) :
    (work runtime jobId).seen = runtime.seen := by
  unfold work
  split <;> rfl

theorem mem_ids_work {runtime : Runtime} {worked jobId : JsString}
    (member : jobId ∈ ids (work runtime worked).queue) : jobId ∈ ids runtime.queue := by
  unfold work at member
  split at member
  · exact mem_ids_complete member
  · exact member

end Events
