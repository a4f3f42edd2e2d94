import ArmstrongBot.Library.Processes
import ArmstrongBot.Notifications.Integrations

/-! Whether every item that a subscription observes is one event for its guild, and its cursor never
passes an item without one. -/

namespace Notifications.Integrations

open JsText JsJson JobQueue StepMachine
open Events (EventEnvelope DeliveryPolicy Runtime buildEnvelope deliveryOf jobIdOf getEventPolicy
  guardKey)

def textField (key : JsString) : Json → Option JsString
  | .obj fields =>
      match fields.find? fun field => field.1 = key with
      | some (_, .str text) => some text
      | _ => none
  | _ => none

/-- The event is addressed to the guild of the subscription and is about the item. -/
def Observation.Concerns (observation : Observation) (event : EventEnvelope) : Prop :=
  event.name = eventName observation.provider ∧ event.guildId = some observation.guildId ∧
    textField (js "externalId") event.payload = some observation.externalId ∧
    textField (itemField observation.provider) event.payload = some observation.cursor

instance (observation : Observation) : DecidablePred observation.Concerns := fun event => by
  unfold Observation.Concerns
  infer_instance

structure FannedOutOnce (state : State) : Prop where
  advanced : ∀ observation ∈ state.advanced, state.enqueued.countP observation.Concerns = 1
  atMostOnce : ∀ observation : Observation, state.enqueued.countP observation.Concerns ≤ 1
  reaches : ∀ event ∈ state.enqueued, event ∈ state.reached ∨
    ∃ job ∈ state.runtime.queue, job.status = .waiting ∧ job.data = event
  origin : ∀ event ∈ state.reached, ∀ observation : Observation, observation.Concerns event →
    event ∈ state.enqueued

/-- The queue retains no other event under the key, and still the one that was enqueued before. -/
def KeyIsOwn (state : State) (observation : Observation) (key : JsString) : Prop :=
  (∀ job ∈ state.runtime.queue, job.id = key → observation.Concerns job.data) ∧
    ∀ event ∈ state.enqueued, observation.Concerns event → key ∈ ids state.runtime.queue

instance (state : State) (observation : Observation) (key : JsString) :
    Decidable (KeyIsOwn state observation key) := by
  unfold KeyIsOwn
  infer_instance

def CallUnshared (state : State) (input : Input) (call : Call) : Prop :=
  match call.phase with
  | .publishing sub found _ => (input.fails = true → input.landed = .queued) →
      KeyIsOwn state (call.source.observation sub found) (call.source.idempotencyKey sub found)
  | _ => True

instance (state : State) (input : Input) : DecidablePred (CallUnshared state input) :=
  fun call => by
    unfold CallUnshared
    split <;> infer_instance

def Unshared (state : State) : Action → Prop
  | .advance index input => ∀ call ∈ state.calls[index]?, CallUnshared state input call
  | _ => True

instance (state : State) : DecidablePred (Unshared state) := fun action => by
  unfold Unshared
  split <;> infer_instance

/-! Which events concern an observation. -/

theorem eventName_injective {first second : IntegrationProviderName}
    (same : eventName first = eventName second) : first = second := by
  cases first <;> cases second <;> first | rfl | exact absurd same (by decide +kernel)

variable {source : Source} {sub : IntegrationSubscription} {found : Found} {input : Input}

theorem envelope_fields (source : Source) (sub : IntegrationSubscription) (found : Found)
    (input : Input) :
    (source.envelope sub found input).name = eventName source.provider ∧
      (source.envelope sub found input).guildId = some sub.guildId ∧
      textField (js "externalId") (source.envelope sub found input).payload =
        some sub.externalId ∧
      textField (itemField source.provider) (source.envelope sub found input).payload =
        some found.id := by
  cases source with
  | push body => exact ⟨rfl, rfl, rfl, rfl⟩
  | poll provider =>
      refine ⟨rfl, rfl, rfl, ?_⟩
      cases provider <;> rfl

theorem concerns_envelope {observation : Observation} :
    observation.Concerns (source.envelope sub found input) ↔
      observation = source.observation sub found := by
  obtain ⟨name, guild, external, item⟩ := envelope_fields source sub found input
  unfold Observation.Concerns
  rw [name, guild, external]
  constructor
  · rintro ⟨sameName, sameGuild, sameExternal, sameItem⟩
    have sameProvider := eventName_injective sameName
    rw [← sameProvider, item] at sameItem
    cases observation
    simp_all [Source.observation]
  · rintro rfl
    exact ⟨rfl, rfl, rfl, item⟩

theorem concerns_name {observation : Observation} {event : EventEnvelope}
    (concerns : observation.Concerns event) : event.name = eventName observation.provider :=
  concerns.1

/-! The queue of a publish. -/

theorem policy_eventName (provider : IntegrationProviderName) :
    getEventPolicy (eventName provider) = Events.defaultPolicy := by
  have all : ∀ provider ∈ [IntegrationProviderName.twitch, .youtube, .github],
      getEventPolicy (eventName provider) = Events.defaultPolicy := by decide +kernel
  apply all
  cases provider <;> simp

theorem queue_publish (runtime : Runtime) (source : Source) (sub : IntegrationSubscription)
    (found : Found) (input : Input) :
    (Events.publish runtime (source.envelope sub found input) (source.delivery sub found)).queue =
      add runtime.queue (source.idempotencyKey sub found) (source.envelope sub found input) := by
  obtain ⟨name, _, _, _⟩ := envelope_fields source sub found input
  have unguarded : guardKey (source.envelope sub found input) = none := by
    rw [guardKey, name, policy_eventName]
    rfl
  have sameName : (source.item sub found).eventName = eventName source.provider := by
    cases source <;> rfl
  have isAsync : source.delivery sub found = .async := by
    rw [Source.delivery, deliveryOf, sameName, policy_eventName]
    rfl
  have isKey : jobIdOf (source.envelope sub found input) = source.idempotencyKey sub found := rfl
  rw [Events.publish, unguarded, isAsync]
  simp only [Events.queue_deliver, DeliveryPolicy.usesAsync, isKey, if_true]

/-! The invariant. -/

structure Sound (state : State) : Prop where
  fannedOut : FannedOutOnce state
  distinct : (ids state.runtime.queue).Nodup
  jobs : ∀ job ∈ state.runtime.queue, ∀ observation : Observation,
    observation.Concerns job.data → job.data ∈ state.enqueued
  published : ∀ call ∈ state.calls, ∀ sub found left, call.phase = .advancing sub found left →
    state.enqueued.countP (call.source.observation sub found).Concerns = 1

theorem sound_start (registries : Events.Registries) (subscriptions : SubscriptionTable) :
    Sound (.start registries subscriptions) := by
  refine ⟨⟨?_, ?_, ?_, ?_⟩, ?_, ?_, ?_⟩ <;> simp [State.start, Runtime.start, ids]

variable {state after : State} {index : Nat} {call next : Call}

theorem reaches_add {queue : List (Job JsString EventEnvelope)} {reached : List EventEnvelope}
    {event : EventEnvelope}
    (reaches : event ∈ reached ∨ ∃ job ∈ queue, job.status = .waiting ∧ job.data = event)
    (key : JsString) (added : EventEnvelope) :
    event ∈ reached ∨ ∃ job ∈ add queue key added, job.status = .waiting ∧ job.data = event := by
  rcases reaches with isReached | ⟨job, member, waits⟩
  · exact Or.inl isReached
  · exact Or.inr ⟨job, mem_add.mpr (Or.inl member), waits⟩

/-- The publish of an item under a key of its own leaves exactly one event of it. -/
theorem sound_publish (sound : Sound state) (input : Input)
    (own : KeyIsOwn state (source.observation sub found) (source.idempotencyKey sub found)) :
    Sound (publish state (source.envelope sub found input) (source.delivery sub found)) ∧
      (publish state (source.envelope sub found input) (source.delivery sub found)).enqueued.countP
        (source.observation sub found).Concerns = 1 := by
  have queue := queue_publish state.runtime source sub found input
  have isKey : jobIdOf (source.envelope sub found input) = source.idempotencyKey sub found := rfl
  have concerns : (source.observation sub found).Concerns (source.envelope sub found input) :=
    concerns_envelope.mpr rfl
  by_cases retained : source.idempotencyKey sub found ∈ ids state.runtime.queue
  · obtain ⟨job, member, isJob⟩ := mem_ids.mp retained
    have isOwn := own.1 job member isJob
    have enqueued := sound.jobs job member _ isOwn
    have one : state.enqueued.countP (source.observation sub found).Concerns = 1 :=
      le_antisymm (sound.fannedOut.atMostOnce _)
        (List.countP_pos_iff.mpr ⟨job.data, enqueued, decide_eq_true isOwn⟩)
    have kept : (Events.publish state.runtime (source.envelope sub found input)
        (source.delivery sub found)).queue = state.runtime.queue := by
      rw [queue, add, if_pos retained]
    unfold publish
    rw [isKey, if_pos retained]
    refine ⟨⟨⟨sound.fannedOut.advanced, sound.fannedOut.atMostOnce, ?_,
      sound.fannedOut.origin⟩, ?_, ?_, sound.published⟩, one⟩
    · rw [kept]
      exact sound.fannedOut.reaches
    · rw [kept]
      exact sound.distinct
    · rw [kept]
      exact sound.jobs
  · have none : state.enqueued.countP (source.observation sub found).Concerns = 0 := by
      refine List.countP_eq_zero.mpr fun event member isOwn => retained ?_
      exact own.2 event member (of_decide_eq_true isOwn)
    have counts (observation : Observation) :
        (state.enqueued ++ [source.envelope sub found input]).countP observation.Concerns =
          state.enqueued.countP observation.Concerns +
            if observation = source.observation sub found then 1 else 0 := by
      rw [List.countP_append, List.countP_singleton]
      simp only [decide_eq_true_eq, concerns_envelope]
    have others (observation : Observation)
        (one : state.enqueued.countP observation.Concerns = 1) :
        (state.enqueued ++ [source.envelope sub found input]).countP observation.Concerns = 1 := by
      rw [counts, one, if_neg]
      rintro rfl
      omega
    unfold publish
    rw [isKey, if_neg retained]
    refine ⟨⟨⟨?_, ?_, ?_, ?_⟩, ?_, ?_, ?_⟩, ?_⟩
    · exact fun observation member => others observation (sound.fannedOut.advanced _ member)
    · intro observation
      rw [counts]
      split
      · rename_i same
        rw [same, none]
      · exact sound.fannedOut.atMostOnce observation
    · intro event member
      rw [queue]
      rcases List.mem_append.mp member with earlier | isNew
      · exact reaches_add (sound.fannedOut.reaches event earlier) _ _
      · refine Or.inr ⟨_, mem_add.mpr (Or.inr ⟨retained, rfl⟩), rfl, ?_⟩
        exact (List.mem_singleton.mp isNew).symm
    · intro event member observation isOwn
      exact List.mem_append_left _ (sound.fannedOut.origin event member observation isOwn)
    · rw [queue]
      exact ids_add_nodup sound.distinct _ _
    · rw [queue]
      intro job member observation isOwn
      rcases mem_add.mp member with earlier | ⟨_, rfl⟩
      · exact List.mem_append_left _ (sound.jobs job earlier observation isOwn)
      · exact List.mem_append_right _ (List.mem_singleton.mpr rfl)
    · intro call member sub found left isPhase
      exact others _ (sound.published call member sub found left isPhase)
    · rw [counts, none, if_pos rfl]

/-- The queue changes without an event of an integration that is new. -/
theorem sound_runtime (sound : Sound state) {runtime : Runtime} {reached : List EventEnvelope}
    (distinct : (ids runtime.queue).Nodup)
    (jobs : ∀ job ∈ runtime.queue, ∀ observation : Observation,
      observation.Concerns job.data → job.data ∈ state.enqueued)
    (reaches : ∀ event ∈ state.enqueued, event ∈ reached ∨
      ∃ job ∈ runtime.queue, job.status = .waiting ∧ job.data = event)
    (origin : ∀ event ∈ reached, ∀ observation : Observation, observation.Concerns event →
      event ∈ state.enqueued) :
    Sound { state with runtime, reached } :=
  ⟨⟨sound.fannedOut.advanced, sound.fannedOut.atMostOnce, reaches, origin⟩, distinct, jobs,
    sound.published⟩

theorem sound_publishOther (sound : Sound state) {envelope : EventEnvelope}
    (other : ∀ provider, envelope.name ≠ eventName provider) (delivery : DeliveryPolicy) :
    Sound { state with runtime := Events.publish state.runtime envelope delivery } := by
  have queue : (Events.publish state.runtime envelope delivery).queue = state.runtime.queue ∨
      (Events.publish state.runtime envelope delivery).queue =
        add state.runtime.queue (jobIdOf envelope) envelope := by
    cases suppressed : Events.guardSuppresses state.runtime envelope with
    | true => exact Or.inl (by rw [Events.publish_suppressed suppressed])
    | false =>
        obtain ⟨seen, published⟩ := Events.publish_accepted suppressed delivery
        rw [published, Events.queue_deliver]
        split
        · exact Or.inr rfl
        · exact Or.inl rfl
  rcases queue with kept | added
  · refine sound_runtime sound ?_ ?_ ?_ sound.fannedOut.origin
    · rw [kept]
      exact sound.distinct
    · rw [kept]
      exact sound.jobs
    · rw [kept]
      exact sound.fannedOut.reaches
  · refine sound_runtime sound ?_ ?_ ?_ sound.fannedOut.origin
    · rw [added]
      exact ids_add_nodup sound.distinct _ _
    · rw [added]
      intro job member observation isOwn
      rcases mem_add.mp member with earlier | ⟨_, rfl⟩
      · exact sound.jobs job earlier observation isOwn
      · exact absurd (concerns_name isOwn) (other observation.provider)
    · rw [added]
      exact fun event member => reaches_add (sound.fannedOut.reaches event member) _ _

/-- The job whose event has reached the handlers may go; the others stay. -/
theorem sound_work {jobId : JsString} {returns : Bool} (sound : Sound state)
    (worked : work state jobId returns = some after) : Sound after := by
  obtain ⟨job, found, rfl⟩ := Option.map_eq_some_iff.mp worked
  obtain ⟨isJob, ofId, _⟩ := withStatus_some found
  have origin : ∀ event ∈ state.reached ++ [job.data], ∀ observation : Observation,
      observation.Concerns event → event ∈ state.enqueued := by
    intro event member observation isOwn
    rcases List.mem_append.mp member with earlier | isNew
    · exact sound.fannedOut.origin event earlier observation isOwn
    · rw [List.mem_singleton.mp isNew] at isOwn ⊢
      exact sound.jobs job isJob observation isOwn
  have reaches (queue : List (Job JsString EventEnvelope))
      (others : ∀ other ∈ state.runtime.queue, other.id ≠ jobId → other.status = .waiting →
        other ∈ queue) :
      ∀ event ∈ state.enqueued, event ∈ state.reached ++ [job.data] ∨
        ∃ other ∈ queue, other.status = .waiting ∧ other.data = event := by
    intro event member
    rcases sound.fannedOut.reaches event member with isReached | ⟨other, isOther, waits, isEvent⟩
    · exact Or.inl (List.mem_append_left _ isReached)
    · by_cases same : other.id = jobId
      · have isSame := eq_of_id sound.distinct isOther isJob (same.trans ofId.symm)
        rw [← isEvent, isSame]
        exact Or.inl (List.mem_append_right _ (List.mem_singleton.mpr rfl))
      · exact Or.inr ⟨other, others other isOther same waits, waits, isEvent⟩
  cases returns with
  | true =>
      have queue : (Events.work state.runtime jobId).queue =
          complete Events.completedLimit state.runtime.queue jobId := by
        rw [Events.work, found]
      simp only [if_true]
      refine sound_runtime sound ?_ ?_ ?_ origin
      · rw [queue]
        exact ids_complete_nodup sound.distinct jobId
      · rw [queue]
        intro other member observation isOwn
        obtain ⟨before, isBefore, _, sameData⟩ := mem_complete_origin member
        rw [← sameData] at isOwn ⊢
        exact sound.jobs before isBefore observation isOwn
      · rw [queue]
        refine reaches _ fun other isOther apart waits => mem_complete_of_ne isOther apart ?_
        rw [waits]
        simp
  | false =>
      simp only [Bool.false_eq_true, if_false]
      refine sound_runtime sound ?_ ?_ ?_ origin
      · rw [ids_retry]
        exact sound.distinct
      · intro other member observation isOwn
        obtain ⟨before, isBefore, _, sameData⟩ := mem_retry_origin member
        rw [← sameData] at isOwn ⊢
        exact sound.jobs before isBefore observation isOwn
      · exact reaches _ fun other isOther apart _ => mem_change_of_ne _ isOther apart

/-! The steps of a call. -/

theorem sound_set (sound : Sound state)
    (published : ∀ sub found left, next.phase = .advancing sub found left →
      state.enqueued.countP (next.source.observation sub found).Concerns = 1) :
    Sound { state with calls := state.calls.set index next } := by
  refine ⟨⟨sound.fannedOut.advanced, sound.fannedOut.atMostOnce, sound.fannedOut.reaches,
    sound.fannedOut.origin⟩, sound.distinct, sound.jobs, ?_⟩
  intro call member
  rcases List.mem_or_eq_of_mem_set member with before | rfl
  · exact sound.published call before
  · exact published

def Phase.SetsNoCursor (phase : Phase) : Prop :=
  ∀ sub found left, phase ≠ .advancing sub found left

theorem next_setsNoCursor (source : Source) (left : List IntegrationSubscription)
    (now : Calendar.Timestamp) : (source.next left now).SetsNoCursor := by
  intro sub found others
  unfold Source.next
  split <;> simp

theorem start_setsNoCursor (source : Source) (subscriptions : SubscriptionTable)
    (now : Calendar.Timestamp) : (source.start subscriptions now).SetsNoCursor := by
  unfold Source.start
  dsimp only
  split
  · exact next_setsNoCursor _ _ _
  · split
    · intro sub found others
      simp
    · exact next_setsNoCursor _ _ _

theorem failed_setsNoCursor (source : Source) (left : List IntegrationSubscription)
    (now : Calendar.Timestamp) : (source.failed left now).SetsNoCursor := by
  unfold Source.failed
  split
  · exact next_setsNoCursor _ _ _
  · intro sub found others
    simp

theorem sound_to (sound : Sound state) {phase : Phase}
    (setsNoCursor : phase.SetsNoCursor) :
    Sound { state with calls := state.calls.set index (call.to phase) } :=
  sound_set sound fun sub found left isPhase => absurd isPhase (setsNoCursor sub found left)

theorem sound_proceed (sound : Sound state) (isCall : state.calls[index]? = some call)
    (unshared : CallUnshared state input call) (succeeds : input.fails = false)
    (proceeded : proceed state call input = some (after, next)) :
    Sound { after with calls := state.calls.set index next } := by
  unfold proceed at proceeded
  unfold CallUnshared at unshared
  cases isPhase : call.phase with
  | listing =>
      simp only [isPhase] at proceeded
      obtain ⟨rfl, rfl⟩ := Prod.mk.inj (Option.some.inj proceeded)
      exact sound_to sound (start_setsNoCursor _ _ _)
  | fetching sub left =>
      simp only [isPhase] at proceeded
      obtain ⟨rfl, rfl⟩ := Prod.mk.inj (Option.some.inj proceeded)
      refine sound_to sound ?_
      split
      · exact next_setsNoCursor _ _ _
      · split
        · exact next_setsNoCursor _ _ _
        · intro _ _ _
          simp
  | publishing sub found left =>
      simp only [isPhase, succeeds] at proceeded unshared
      obtain ⟨rfl, rfl⟩ := Prod.mk.inj (Option.some.inj proceeded)
      obtain ⟨published, one⟩ := sound_publish sound input (unshared (by simp))
      refine sound_set published ?_
      rintro _ _ _ ⟨⟩
      exact one
  | advancing sub found left =>
      simp only [isPhase] at proceeded
      obtain ⟨subscriptions, _, same⟩ := Option.map_eq_some_iff.mp proceeded
      obtain ⟨rfl, rfl⟩ := Prod.mk.inj same
      have one := sound.published call (List.mem_of_getElem? isCall) sub found left isPhase
      have advanced : Sound { state with
          subscriptions, advanced := state.advanced ++ [call.source.observation sub found] } := by
        refine ⟨⟨?_, sound.fannedOut.atMostOnce, sound.fannedOut.reaches,
          sound.fannedOut.origin⟩, sound.distinct, sound.jobs, sound.published⟩
        intro observation member
        rcases List.mem_append.mp member with earlier | isNew
        · exact sound.fannedOut.advanced observation earlier
        · rw [List.mem_singleton.mp isNew]
          exact one
      exact sound_to advanced (next_setsNoCursor _ _ _)
  | ended ending =>
      simp only [isPhase] at proceeded
      cases proceeded

theorem sound_reject (sound : Sound state) (unshared : CallUnshared state input call)
    (rejected : reject state call input = some (after, next)) :
    Sound { after with calls := state.calls.set index next } := by
  unfold reject at rejected
  unfold CallUnshared at unshared
  cases isPhase : call.phase with
  | listing =>
      simp only [isPhase] at rejected
      obtain ⟨rfl, rfl⟩ := Prod.mk.inj (Option.some.inj rejected)
      exact sound_to sound fun _ _ _ => by simp
  | fetching sub left =>
      simp only [isPhase] at rejected
      obtain ⟨rfl, rfl⟩ := Prod.mk.inj (Option.some.inj rejected)
      exact sound_to sound (failed_setsNoCursor _ _ _)
  | publishing sub found left =>
      simp only [isPhase] at rejected unshared
      obtain ⟨rfl, rfl⟩ := Prod.mk.inj (Option.some.inj rejected)
      cases landed : input.landed with
      | nothing => exact sound_to sound (failed_setsNoCursor _ _ _)
      | logged =>
          have logged : Sound { state with
              runtime := Events.persist state.runtime (call.source.envelope sub found input)
                (call.source.delivery sub found) } :=
            sound_runtime sound sound.distinct sound.jobs sound.fannedOut.reaches
              sound.fannedOut.origin
          exact sound_to logged (failed_setsNoCursor _ _ _)
      | queued =>
          obtain ⟨published, _⟩ :=
            sound_publish sound input (unshared fun _ => landed)
          exact sound_to published (failed_setsNoCursor _ _ _)
  | advancing sub found left =>
      simp only [isPhase] at rejected
      obtain ⟨rfl, rfl⟩ := Prod.mk.inj (Option.some.inj rejected)
      exact sound_to sound (failed_setsNoCursor _ _ _)
  | ended ending =>
      simp only [isPhase] at rejected
      cases rejected

theorem sound_begin (sound : Sound state) (listing : call.phase = .listing) :
    Sound { state with calls := state.calls ++ [call] } := by
  refine ⟨⟨sound.fannedOut.advanced, sound.fannedOut.atMostOnce, sound.fannedOut.reaches,
    sound.fannedOut.origin⟩, sound.distinct, sound.jobs, ?_⟩
  intro other member sub found left isPhase
  rcases List.mem_append.mp member with before | isNew
  · exact sound.published other before sub found left isPhase
  · rw [List.mem_singleton.mp isNew, listing] at isPhase
    cases isPhase

theorem sound_step {action : Action} (sound : Sound state) (unshared : Unshared state action)
    (taken : step state action = some after) : Sound after := by
  cases action with
  | poll provider =>
      simp only [step] at taken
      split at taken
      · cases taken
      · obtain rfl := Option.some.inj taken
        exact sound_begin sound rfl
  | ingest body =>
      obtain rfl := Option.some.inj taken
      cases accepted : ingest body with
      | error reason => exact sound
      | ok call =>
          refine sound_begin sound ?_
          unfold ingest at accepted
          split at accepted <;> cases accepted
          rfl
  | advance index input =>
      obtain ⟨call, isCall, rest⟩ := Option.bind_eq_some_iff.mp taken
      obtain ⟨⟨later, next⟩, advanced, rfl⟩ := Option.map_eq_some_iff.mp rest
      unfold advance at advanced
      split at advanced
      · exact sound_reject sound (unshared call isCall) advanced
      · rename_i succeeds
        exact sound_proceed sound isCall (unshared call isCall) (by simpa using succeeds) advanced
  | work jobId returns => exact sound_work sound taken
  | publishOther envelope delivery =>
      simp only [step] at taken
      split at taken
      · cases taken
      · rename_i other
        obtain rfl := Option.some.inj taken
        refine sound_publishOther sound (fun provider same => other ⟨provider, ?_, same⟩) delivery
        cases provider <;> simp

def follows (id guildId externalId : JsString) : IntegrationSubscription :=
  { id, guildId, provider := .twitch, externalId, announceChannelId := none, cursor := none
    active := true, deletedAt := none }

def followers (externalId : JsString) : SubscriptionTable :=
  { rows := [follows (js "s") (js "g") (js "ghost"), follows (js "t") (js "h") externalId]
    distinct := by
      show [js "s", js "t"].Nodup
      decide }

def fetching (index : Nat) (streamId : JsString) (fails : Bool) : Action :=
  .advance index
    { fails, landed := .nothing, fetched := some (streamId, js "live"), envelopeId := streamId
      context := { correlationId := js "c", causationId := none }, now := 0 }

/-- One publish fails, so that the next poll tries again. -/
def twoStreamers : List Action :=
  [[.poll .twitch], List.replicate 2 (fetching 0 (js "1") false), [fetching 0 (js "1") true],
    List.replicate 3 (fetching 0 (js "2") false), [.work (js "2") true, .poll .twitch],
    List.replicate 4 (fetching 1 (js "1") false), [fetching 1 (js "2") false]].flatten

/-- Both follow the same streamer. -/
def sameStreamer : List Action :=
  .poll .twitch :: List.replicate 7 (fetching 0 (js "1") false)

end Notifications.Integrations
