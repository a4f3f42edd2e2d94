import ArmstrongBot.Webhooks.Verification
import ArmstrongBot.Library.JobQueue

/-! `InboundWebhookService` as calls of `accept` that advance from await to await, the worker of
the queue `webhooks.inbound`, and the replay of the admin controller. -/

namespace Webhooks

open JsText JobQueue
open Calendar (Timestamp)

structure WebhooksConfig where
  maxInboundBodyBytes : Nat
  signatureToleranceSeconds : Nat
  dedupeTtlSeconds : Nat

structure NormalizationContext where
  rawBody : Bytes
  headers : Headers
  guildId : Option JsString
  internalDeliveryId : JsString

/-- The registered strategies, which are told the time, and the hash of the dedupe key. -/
structure Services where
  verify : WebhookProvider → VerificationContext → Timestamp → Except JsString Unit
  normalize : WebhookProvider → NormalizationContext → Timestamp →
    Except JsString (Option IntegrationEvent)
  bodyHash : Bytes → JsString

inductive Answer
  | accepted (internalDeliveryId : JsString) (deduped : Bool)
  | signatureInvalid (reason : JsString)
  | failed
  deriving DecidableEq

inductive Phase
  | lookingUp (externalId : JsString)
  | verifying
  | storingRejected (reason : JsString)
  | markingRejected (id reason : JsString)
  | claiming
  | marking
  | lookingAgain (externalId : JsString)
  | storing
  | markingVerified (id : JsString)
  | enqueueing (id : JsString)
  | releasing
  | answered (answer : Answer)
  deriving DecidableEq

/-- A call of `accept`; `verified` tells whether its signature has been found valid. -/
structure Call where
  request : Request
  endpoint : WebhookEndpoint
  receivedAt : Timestamp
  verified : Bool
  phase : Phase
  deriving DecidableEq

def Call.to (call : Call) (phase : Phase) : Call := { call with phase }

@[simp] theorem Call.to_phase (call : Call) (phase : Phase) : (call.to phase).phase = phase := rfl

/-- The tables and queues, with three logs: the rows stored, each with whether the signature of
its request had been found valid, the rows that got a job, and the events published, each with
its row. -/
structure State where
  deliveries : Table
  claims : List JsString
  queue : List (Job JsString JsString)
  calls : List Call
  receipts : List (JsString × Bool)
  enqueued : List JsString
  published : List (IngressDelivery × IntegrationEvent)

def State.start : State :=
  { deliveries := .empty, claims := [], queue := [], calls := [], receipts := [], enqueued := []
    published := [] }

/-- What a step between two awaits may depend on: an id that the database makes up, the time, and
whether the service that is awaited fails. -/
structure Input where
  id : JsString
  now : Timestamp
  fails : Bool

inductive Refusal
  | payloadTooLarge (sizeBytes limitBytes : Nat)
  | endpointDisabled
  deriving DecidableEq

/-- `accept` before its first look at the deliveries. -/
def refusal (config : WebhooksConfig) (request : Request) (found : Option WebhookEndpoint) :
    Option Refusal :=
  if config.maxInboundBodyBytes < request.rawBody.length then
    some (.payloadTooLarge request.rawBody.length config.maxInboundBodyBytes)
  else
    match found with
    | some endpoint =>
        if endpoint.enabled && endpoint.deletedAt.isNone then none else some .endpointDisabled
    | none => some .endpointDisabled

/-- `WebhookIdempotencyGuard.cacheKey`; an empty guild id counts as none. -/
def cacheKey (guildId : Option JsString) (deliveryId : JsString) : JsString :=
  match guildId.filter fun id => id ≠ [] with
  | some id => js "guild:" ++ id ++ js ":generic:webhooks:dedupe:" ++ deliveryId
  | none => js "global:generic:webhooks:dedupe:" ++ deliveryId

def Call.externalId (call : Call) : Option JsString :=
  extractDeliveryId call.endpoint.provider call.request.headers

def verificationContext (config : WebhooksConfig) (call : Call) : VerificationContext :=
  { rawBody := call.request.rawBody, headers := call.request.headers
    signingSecret := call.endpoint.signingSecret
    toleranceSeconds := config.signatureToleranceSeconds }

def inboundJobId (internalDeliveryId : JsString) : JsString := js "inbound:" ++ internalDeliveryId

def inboundAttempts : Nat := 5

def completedLimit : Nat := 1000

def enqueueInboundProcess (state : State) (internalDeliveryId : JsString) : State :=
  { state with
    queue := add state.queue (inboundJobId internalDeliveryId) internalDeliveryId
    enqueued := state.enqueued ++ [internalDeliveryId] }

section

variable (services : Services) (config : WebhooksConfig)

def dedupeKey (call : Call) : JsString :=
  cacheKey call.endpoint.guildId (call.externalId.getD (services.bodyHash call.request.rawBody))

def verifySignature (call : Call) (now : Timestamp) : Except JsString Unit :=
  services.verify call.endpoint.provider (verificationContext config call) now

/-- The phase after a lookup: the answer for a row that is there already. -/
def afterLookup (row : Option IngressDelivery) (otherwise : Phase) : Phase :=
  match row with
  | some existing => .answered (.accepted existing.id true)
  | none => otherwise

/-- `createIngress` for a call, logged with what is known of the signature. -/
def store (state : State) (call : Call) (id : JsString) : Option State :=
  (state.deliveries.insert (newDelivery id call.endpoint call.request)).map fun deliveries =>
    { state with deliveries, receipts := state.receipts ++ [(id, call.verified)] }

def updateRow (state : State) (id : JsString) (update : StatusUpdate) : State :=
  { state with deliveries := state.deliveries.updateIngressStatus id update }

def advance (state : State) (call : Call) (input : Input) : Option (State × Call) :=
  match call.phase with
  | .lookingUp externalId =>
      if input.fails then some (state, call.to (.answered .failed))
      else some (state, call.to (afterLookup
        (state.deliveries.findIngressByExternalId call.endpoint.id externalId) .verifying))
  | .verifying =>
      if input.fails then some (state, call.to (.answered .failed))
      else
        match verifySignature services config call input.now with
        | .ok _ =>
            some (state, { call with
              verified := true
              phase := if config.dedupeTtlSeconds = 0 then .storing else .claiming })
        | .error reason => some (state, call.to (.storingRejected reason))
  | .storingRejected reason =>
      match if input.fails then none else store state call input.id with
      | some next => some (next, call.to (.markingRejected input.id reason))
      | none => some (state, call.to (.answered (.signatureInvalid reason)))
  | .markingRejected id reason =>
      let update := { StatusUpdate.to .rejected with rejectReason := some reason }
      some (if input.fails then state else updateRow state id update,
        call.to (.answered (.signatureInvalid reason)))
  | .claiming =>
      if dedupeKey services call ∈ state.claims then
        some (state, call.to (call.externalId.elim .storing .lookingAgain))
      else some (state, call.to .marking)
  | .marking =>
      some ({ state with claims := dedupeKey services call :: state.claims }, call.to .storing)
  | .lookingAgain externalId =>
      if input.fails then some (state, call.to (.answered .failed))
      else some (state, call.to (afterLookup
        (state.deliveries.findIngressByExternalId call.endpoint.id externalId) .storing))
  | .storing =>
      match if input.fails then none else store state call input.id with
      | some next => some (next, call.to (.markingVerified input.id))
      | none => some (state, call.to .releasing)
  | .markingVerified id =>
      if input.fails then some (state, call.to .releasing)
      else some (updateRow state id (.to .verified), call.to (.enqueueing id))
  | .enqueueing id =>
      if input.fails then some (state, call.to .releasing)
      else some (enqueueInboundProcess state id, call.to (.answered (.accepted id false)))
  | .releasing =>
      some ({ state with claims := state.claims.filter fun key => key ≠ dedupeKey services call },
        call.to (.answered .failed))
  | .answered _ => none

/-- A call with its endpoint, before its first await. -/
def received (request : Request) (endpoint : WebhookEndpoint) (now : Timestamp) : Call :=
  { request, endpoint, receivedAt := now, verified := false
    phase := (extractDeliveryId endpoint.provider request.headers).elim .verifying .lookingUp }

/-- `accept` for a request whose endpoint lookup gave `found`; nothing is kept of a refused one. -/
def accept (state : State) (request : Request) (found : Option WebhookEndpoint)
    (now : Timestamp) : State :=
  match refusal config request found, found with
  | none, some endpoint =>
      { state with calls := state.calls ++ [received request endpoint now] }
  | _, _ => state

end

/-! The worker. -/

inductive ProcessStep
  | find
  | start
  | publish
  | finish
  deriving DecidableEq

def ProcessStep.index : ProcessStep → Nat
  | .find => 0
  | .start => 1
  | .publish => 2
  | .finish => 3

/-- How a run of `process` goes: no step fails; one throws, and then the row is marked as failed
unless that throws as well; or the worker dies before one. -/
inductive Outcome
  | returns
  | throws (failing : ProcessStep) (reason : JsString) (marks : Bool)
  | dies (before : ProcessStep)
  deriving DecidableEq

def Outcome.reaches : Outcome → ProcessStep → Bool
  | .returns, _ => true
  | .throws failing _ _, step => step.index < failing.index
  | .dies before, step => step.index < before.index

def Outcome.reason : Outcome → JsString
  | .throws _ reason _ => reason
  | _ => []

/-- `markFailed`, where the run gets that far. -/
def Outcome.markFailed (reason : JsString) (now : Timestamp) : Outcome → List StatusUpdate
  | .dies _ | .throws _ _ false => []
  | _ => [{ status := .failed, eventType := none, rejectReason := some reason
            processedAt := some now }]

/-- What a run of `process` does: the updates of the row, the event published, if any, and
whether it returned. -/
structure Processing where
  updates : List StatusUpdate
  event : Option IntegrationEvent
  returned : Bool

def normalize (services : Services) (row : IngressDelivery) (now : Timestamp) :
    Except JsString (Option IntegrationEvent) :=
  services.normalize row.provider
    { rawBody := row.rawBody, headers := row.headers, guildId := row.guildId
      internalDeliveryId := row.id } now

/-- `InboundWebhookService.process` on a row that it has found. -/
def processRow (services : Services) (outcome : Outcome) (now : Timestamp)
    (row : IngressDelivery) : Processing :=
  if outcome.reaches .start then
    match normalize services row now with
    | .error reason =>
        { updates := .to .processing :: outcome.markFailed reason now, event := none
          returned := false }
    | .ok event =>
        if outcome.reaches .finish then
          { updates := [.to .processing,
              { StatusUpdate.to .processed with
                eventType := event.map IntegrationEvent.type, processedAt := some now }]
            event, returned := true }
        else
          { updates := .to .processing :: outcome.markFailed outcome.reason now
            event := event.filter fun _ => outcome.reaches .publish
            returned := false }
  else { updates := [], event := none, returned := false }

/-- What the queue does with the job after a run; a job whose worker died waits again. -/
def settleJob (queue : List (Job JsString JsString)) (jobId : JsString) (returned : Bool) :
    Outcome → List (Job JsString JsString)
  | .dies _ => queue
  | _ => if returned then complete completedLimit queue jobId else retry inboundAttempts queue jobId

def attempt (services : Services) (state : State) (jobId : JsString) (outcome : Outcome)
    (now : Timestamp) : Option State :=
  match withStatus state.queue jobId .waiting with
  | none => none
  | some job =>
      match state.deliveries.findIngressById job.data with
      | none => some { state with queue := settleJob state.queue jobId true outcome }
      | some row =>
          let processing := processRow services outcome now row
          some { state with
            deliveries := processing.updates.foldl
              (fun table update => table.updateIngressStatus row.id update) state.deliveries
            queue := settleJob state.queue jobId processing.returned outcome
            published := state.published ++
              (processing.event.map fun event => (row, event)).toList }

inductive InboundAction
  | accept (request : Request) (found : Option WebhookEndpoint) (now : Timestamp)
  | advance (call : Nat) (input : Input)
  | expireClaim (key : JsString)
  | attempt (jobId : JsString) (outcome : Outcome) (now : Timestamp)

def inboundStep (services : Services) (config : WebhooksConfig) (state : State) :
    InboundAction → Option State
  | .accept request found now => some (accept config state request found now)
  | .advance index input =>
      match state.calls[index]? with
      | some call =>
          (advance services config state call input).map fun next =>
            { next.1 with calls := state.calls.set index next.2 }
      | none => none
  | .expireClaim key =>
      some { state with claims := state.claims.filter fun claimed => claimed ≠ key }
  | .attempt jobId outcome now => attempt services state jobId outcome now

/-- `WebhookAdminController.replayDelivery`; a delivery of another guild is not found. -/
def replay (state : State) (guildId id : JsString) : Option State :=
  match state.deliveries.findIngressById id with
  | some row =>
      if row.guildId = some guildId then some (enqueueInboundProcess state row.id) else none
  | none => none

inductive Action
  | inbound (action : InboundAction)
  | replay (guildId id : JsString)

def step (services : Services) (config : WebhooksConfig) (state : State) : Action → Option State
  | .inbound action => inboundStep services config state action
  | .replay guildId id => Webhooks.replay state guildId id

/-! What one step of a call can do. -/

/-- The row that a call has stored and not yet queued. -/
def Phase.holds : Phase → Option JsString
  | .markingVerified id | .enqueueing id => some id
  | _ => none

def Phase.looking : Phase → Option JsString
  | .lookingUp externalId | .lookingAgain externalId => some externalId
  | _ => none

def Phase.accepts : Phase → Option JsString
  | .answered (.accepted id _) => some id
  | _ => none

inductive Effect (state : State) (call : Call) (input : Input) : State → Call → Prop
  | quiet {claims : List JsString} {next : Call} :
      next.request = call.request → next.endpoint = call.endpoint →
      next.receivedAt = call.receivedAt → next.phase.holds = none → next.phase.accepts = none →
      Effect state call input { state with claims } next
  | deduped {externalId : JsString} {row : IngressDelivery} :
      input.fails = false → call.phase.looking = some externalId →
      state.deliveries.findIngressByExternalId call.endpoint.id externalId = some row →
      Effect state call input state (call.to (.answered (.accepted row.id true)))
  | stored {next : State} {phase : Phase} :
      input.fails = false → store state call input.id = some next →
      phase.holds = none ∧ (∃ reason, call.phase = .storingRejected reason) ∨
        phase = .markingVerified input.id ∧ call.phase = .storing →
      phase.accepts = none → Effect state call input next (call.to phase)
  | updated {held : JsString} {update : StatusUpdate} {phase : Phase} :
      phase.holds = none ∨ phase = .enqueueing held ∧ call.phase = .markingVerified held →
      phase.accepts = none → Effect state call input (updateRow state held update) (call.to phase)
  | queued {held : JsString} : call.phase = .enqueueing held →
      Effect state call input (enqueueInboundProcess state held)
        (call.to (.answered (.accepted held false)))

theorem effect_to {state : State} {call : Call} {input : Input} {phase : Phase}
    (holds : phase.holds = none) (accepts : phase.accepts = none) :
    Effect state call input state (call.to phase) :=
  @Effect.quiet state call input state.claims _ rfl rfl rfl holds accepts

theorem effect_afterLookup {state : State} {call : Call} {input : Input} {externalId : JsString}
    {otherwise : Phase} (works : input.fails = false)
    (looking : call.phase.looking = some externalId) (holds : otherwise.holds = none)
    (accepts : otherwise.accepts = none) :
    Effect state call input state (call.to (afterLookup
      (state.deliveries.findIngressByExternalId call.endpoint.id externalId) otherwise)) := by
  cases found : state.deliveries.findIngressByExternalId call.endpoint.id externalId with
  | some row => exact .deduped works looking found
  | none => exact effect_to holds accepts

theorem advance_effect {services : Services} {config : WebhooksConfig} {state : State}
    {call : Call} {input : Input} {next : State × Call}
    (taken : advance services config state call input = some next) :
    Effect state call input next.1 next.2 := by
  unfold advance at taken
  split at taken
  case h_1 externalId phase =>
      split at taken <;> obtain rfl := Option.some.inj taken
      · exact effect_to rfl rfl
      · rename_i works
        exact effect_afterLookup (by simpa using works) (by rw [phase]; rfl) rfl rfl
  case h_2 phase =>
      split at taken
      · obtain rfl := Option.some.inj taken
        exact effect_to rfl rfl
      · split at taken <;> obtain rfl := Option.some.inj taken
        · refine @Effect.quiet state call input state.claims _ rfl rfl rfl ?_ ?_
          · simp only
            split <;> rfl
          · simp only
            split <;> rfl
        · exact effect_to rfl rfl
  case h_3 reason phase =>
      split at taken <;> obtain rfl := Option.some.inj taken
      · rename_i stored
        obtain ⟨works, isStored⟩ := Option.ite_none_left_eq_some.mp stored
        exact .stored (by simpa using works) isStored (Or.inl ⟨rfl, reason, phase⟩) rfl
      · exact effect_to rfl rfl
  case h_4 id reason phase =>
      obtain rfl := Option.some.inj taken
      simp only
      split
      · exact effect_to rfl rfl
      · exact .updated (Or.inl rfl) rfl
  case h_5 phase =>
      split at taken <;> obtain rfl := Option.some.inj taken
      · cases call.externalId <;> exact effect_to rfl rfl
      · exact effect_to rfl rfl
  case h_6 phase =>
      obtain rfl := Option.some.inj taken
      exact .quiet rfl rfl rfl rfl rfl
  case h_7 externalId phase =>
      split at taken <;> obtain rfl := Option.some.inj taken
      · exact effect_to rfl rfl
      · rename_i works
        exact effect_afterLookup (by simpa using works) (by rw [phase]; rfl) rfl rfl
  case h_8 phase =>
      split at taken <;> obtain rfl := Option.some.inj taken
      · rename_i stored
        obtain ⟨works, isStored⟩ := Option.ite_none_left_eq_some.mp stored
        exact .stored (by simpa using works) isStored (Or.inr ⟨rfl, phase⟩) rfl
      · exact effect_to rfl rfl
  case h_9 id phase =>
      split at taken <;> obtain rfl := Option.some.inj taken
      · exact effect_to rfl rfl
      · exact .updated (Or.inr ⟨rfl, phase⟩) rfl
  case h_10 id phase =>
      split at taken <;> obtain rfl := Option.some.inj taken
      · exact effect_to rfl rfl
      · exact .queued phase
  case h_11 phase =>
      obtain rfl := Option.some.inj taken
      exact .quiet rfl rfl rfl rfl rfl
  case h_12 => simp at taken

theorem advance_found {services : Services} {config : WebhooksConfig} {state : State} {call : Call}
    {input : Input} (works : input.fails = false) {externalId : JsString}
    (looking : call.phase.looking = some externalId) {row : IngressDelivery}
    (found : state.deliveries.findIngressByExternalId call.endpoint.id externalId = some row) :
    advance services config state call input =
      some (state, call.to (.answered (.accepted row.id true))) := by
  unfold Phase.looking at looking
  split at looking
  · rename_i phase
    obtain rfl := Option.some.inj looking
    simp [advance, phase, works, found, afterLookup]
  · rename_i phase
    obtain rfl := Option.some.inj looking
    simp [advance, phase, works, found, afterLookup]
  · simp at looking

theorem received_phase (request : Request) (endpoint : WebhookEndpoint) (now : Timestamp) :
    (received request endpoint now).phase.holds = none ∧
      (received request endpoint now).phase.accepts = none := by
  cases found : extractDeliveryId endpoint.provider request.headers <;>
    simp [received, found, Phase.holds, Phase.accepts]

/-- What a phase tells of the signature: not checked yet or refused, or found valid. -/
def Phase.verdict : Phase → Option Bool
  | .lookingUp _ | .verifying | .storingRejected _ => some false
  | .claiming | .marking | .lookingAgain _ | .storing | .markingVerified _ | .enqueueing _ =>
      some true
  | .markingRejected _ _ | .releasing | .answered _ => none

def Call.Sound (call : Call) : Prop := ∀ verdict ∈ call.phase.verdict, call.verified = verdict

theorem received_sound (request : Request) (endpoint : WebhookEndpoint) (now : Timestamp) :
    (received request endpoint now).Sound := by
  cases found : extractDeliveryId endpoint.provider request.headers <;>
    simp [received, found, Call.Sound, Phase.verdict]

theorem sound_to {call : Call} {phase : Phase} (same : phase.verdict = call.phase.verdict)
    (sound : call.Sound) : (call.to phase).Sound := by
  intro verdict isVerdict
  rw [Call.to_phase, same] at isVerdict
  exact sound verdict isVerdict

theorem sound_settled (call : Call) {phase : Phase} (settled : phase.verdict = none) :
    (call.to phase).Sound := by
  simp [Call.Sound, settled]

theorem sound_afterLookup {call : Call} {row : Option IngressDelivery} {otherwise : Phase}
    (same : otherwise.verdict = call.phase.verdict) (sound : call.Sound) :
    (call.to (afterLookup row otherwise)).Sound := by
  cases row with
  | some row => exact sound_settled call rfl
  | none => exact sound_to same sound

theorem advance_sound {services : Services} {config : WebhooksConfig} {state : State}
    {call : Call} {input : Input} {next : State × Call} (sound : call.Sound)
    (taken : advance services config state call input = some next) : next.2.Sound := by
  unfold advance at taken
  split at taken
  case h_1 phase =>
      split at taken <;> obtain rfl := Option.some.inj taken
      · exact sound_settled call rfl
      · exact sound_afterLookup (by rw [phase]; rfl) sound
  case h_2 phase =>
      split at taken
      · obtain rfl := Option.some.inj taken
        exact sound_settled call rfl
      · split at taken <;> obtain rfl := Option.some.inj taken
        · simp only [Call.Sound]
          split <;> simp [Phase.verdict]
        · exact sound_to (by rw [phase]; rfl) sound
  case h_3 phase =>
      split at taken <;> obtain rfl := Option.some.inj taken <;> exact sound_settled call rfl
  case h_4 phase =>
      obtain rfl := Option.some.inj taken
      exact sound_settled call rfl
  case h_5 phase =>
      split at taken <;> obtain rfl := Option.some.inj taken
      · cases call.externalId <;> exact sound_to (by rw [phase]; rfl) sound
      · exact sound_to (by rw [phase]; rfl) sound
  case h_6 phase =>
      obtain rfl := Option.some.inj taken
      exact sound_to (by rw [phase]; rfl) sound
  case h_7 phase =>
      split at taken <;> obtain rfl := Option.some.inj taken
      · exact sound_settled call rfl
      · exact sound_afterLookup (by rw [phase]; rfl) sound
  case h_8 phase =>
      split at taken <;> obtain rfl := Option.some.inj taken
      · exact sound_to (by rw [phase]; rfl) sound
      · exact sound_settled call rfl
  case h_9 phase =>
      split at taken <;> obtain rfl := Option.some.inj taken
      · exact sound_settled call rfl
      · exact sound_to (by rw [phase]; rfl) sound
  case h_10 phase =>
      split at taken <;> obtain rfl := Option.some.inj taken <;> exact sound_settled call rfl
  case h_11 phase =>
      obtain rfl := Option.some.inj taken
      exact sound_settled call rfl
  case h_12 => simp at taken

/-- Receipts stay as they were, and the logs only grow. -/
structure Extends (state next : State) : Prop where
  rows : ∀ row ∈ state.deliveries.rows, ∃ later ∈ next.deliveries.rows, SameReceipt later row
  receipts : state.receipts ⊆ next.receipts
  enqueued : state.enqueued ⊆ next.enqueued

theorem Extends.refl (state : State) : Extends state state :=
  ⟨fun row member => ⟨row, member, .refl row⟩, List.Subset.refl _, List.Subset.refl _⟩

theorem store_some {state next : State} {call : Call} {id : JsString}
    (stored : store state call id = some next) :
    ∃ deliveries, state.deliveries.insert (newDelivery id call.endpoint call.request) =
        some deliveries ∧
      next = { state with deliveries, receipts := state.receipts ++ [(id, call.verified)] } := by
  obtain ⟨deliveries, inserted, rfl⟩ := Option.map_eq_some_iff.mp stored
  exact ⟨deliveries, inserted, rfl⟩

theorem extends_store {state next : State} {call : Call} {id : JsString}
    (stored : store state call id = some next) : Extends state next := by
  obtain ⟨deliveries, inserted, rfl⟩ := store_some stored
  refine ⟨?_, List.subset_append_left _ _, List.Subset.refl _⟩
  intro row member
  refine ⟨row, ?_, .refl row⟩
  simp only [insert_rows inserted]
  exact List.mem_append_left _ member

theorem extends_updateRow (state : State) (id : JsString) (update : StatusUpdate) :
    Extends state (updateRow state id update) :=
  ⟨fun _ member => mem_updateIngressStatus_of_mem id update member, List.Subset.refl _,
    List.Subset.refl _⟩

theorem effect_extends {state next : State} {call later : Call} {input : Input}
    (effect : Effect state call input next later) : Extends state next := by
  cases effect with
  | quiet => exact ⟨(Extends.refl state).rows, List.Subset.refl _, List.Subset.refl _⟩
  | deduped => exact .refl state
  | stored _ stored => exact extends_store stored
  | updated => exact extends_updateRow state _ _
  | queued =>
      exact ⟨(Extends.refl state).rows, List.Subset.refl _, List.subset_append_left _ _⟩

theorem mem_foldl_update {table : Table} {id : JsString} {updates : List StatusUpdate}
    {row : IngressDelivery} (member : row ∈ table.rows) :
    ∃ later ∈ (updates.foldl (fun table update => table.updateIngressStatus id update) table).rows,
      SameReceipt later row := by
  induction updates generalizing table row with
  | nil => exact ⟨row, member, .refl row⟩
  | cons update rest ih =>
      obtain ⟨next, nextMember, same⟩ := mem_updateIngressStatus_of_mem id update member
      obtain ⟨later, laterMember, sameLater⟩ := ih nextMember
      exact ⟨later, laterMember, sameLater.trans same⟩

theorem mem_foldl_update_origin {table : Table} {id : JsString} {updates : List StatusUpdate}
    {row : IngressDelivery} (member : row ∈ (updates.foldl
      (fun table update => table.updateIngressStatus id update) table).rows) :
    ∃ earlier ∈ table.rows, SameReceipt row earlier := by
  induction updates generalizing table with
  | nil => exact ⟨row, member, .refl row⟩
  | cons update rest ih =>
      obtain ⟨next, nextMember, same⟩ := ih member
      obtain ⟨earlier, earlierMember, sameEarlier⟩ := mem_updateIngressStatus nextMember
      exact ⟨earlier, earlierMember, same.trans sameEarlier⟩

theorem mem_settleJob {queue : List (Job JsString JsString)} {jobId : JsString} {returned : Bool}
    {outcome : Outcome} {job : Job JsString JsString}
    (member : job ∈ settleJob queue jobId returned outcome) :
    ∃ before ∈ queue, before.id = job.id ∧ before.data = job.data := by
  unfold settleJob at member
  split at member
  · exact ⟨job, member, rfl, rfl⟩
  · split at member
    · exact mem_complete_origin member
    · exact mem_retry_origin member

theorem attempt_extends {services : Services} {state next : State} {jobId : JsString}
    {outcome : Outcome} {now : Timestamp}
    (taken : attempt services state jobId outcome now = some next) : Extends state next := by
  unfold attempt at taken
  split at taken
  · simp at taken
  · split at taken <;> obtain rfl := Option.some.inj taken
    · exact ⟨(Extends.refl state).rows, List.Subset.refl _, List.Subset.refl _⟩
    · exact ⟨fun _ member => mem_foldl_update member, List.Subset.refl _, List.Subset.refl _⟩

/-! A custom endpoint, the keyed hash of its secret and the body `{}`, and what the custom
normalizer makes of that body. -/

def emptyBody : Bytes := [123, 125]

def emptyBodyDigest : Bytes :=
  [174, 99, 65, 234, 127, 64, 164, 53, 219, 87, 217, 3, 208, 44, 186, 25, 8, 94, 251, 138, 145, 63,
    140, 251, 216, 207, 243, 215, 223, 12, 122, 45]

def emptyBodySignature : JsString :=
  js "ae6341ea7f40a435db57d903d02cba19085efb8a913f8cfbd8cff3d7df0c7a2d"

def customEndpoint : WebhookEndpoint :=
  { id := js "e", guildId := some (js "g"), provider := .custom, signingSecret := js "whsec"
    enabled := true, deletedAt := none }

def sampleHmac (secret : JsString) (body : Bytes) : Bytes :=
  if secret = js "whsec" ∧ body = emptyBody then emptyBodyDigest else []

def sampleServices : Services :=
  { verify := fun provider context _ =>
      match provider with
      | .fivem | .custom => sharedSecretVerify sampleHmac context
      | .github => githubVerify sampleHmac context
      | .stripe => .error (signatureInvalid (js "malformed signature header"))
    normalize := fun provider context now =>
      if context.rawBody = emptyBody then
        .ok (some { type := js "custom.event", provider, guildId := context.guildId
                    deliveryId := header context.headers (js "x-delivery-id")
                    internalDeliveryId := context.internalDeliveryId, occurredAt := now
                    data := .obj [] })
      else .ok none
    bodyHash := fun _ => js "44136fa355b3678a1146ad16f7e8649e94fb4fc21fe77e8310c060f61caaff8a" }

def sampleConfig : WebhooksConfig :=
  { maxInboundBodyBytes := 1048576, signatureToleranceSeconds := 300, dedupeTtlSeconds := 86400 }

def signedRequest (headers : Headers) : Request :=
  { rawBody := emptyBody, headers := (js "x-signature-256", emptyBodySignature) :: headers }

def forgedRequest (headers : Headers) : Request := { rawBody := emptyBody, headers }

def accepting (request : Request) : InboundAction := .accept request (some customEndpoint) 0

def advancing (call : Nat) (id : JsString) : InboundAction :=
  .advance call { id, now := 0, fails := false }

end Webhooks
