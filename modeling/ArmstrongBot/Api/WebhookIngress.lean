import ArmstrongBot.Events.Bus
import ArmstrongBot.Library.Ownership
import ArmstrongBot.Library.StepMachine
import ArmstrongBot.Library.Table
import ArmstrongBot.Webhooks.StripeSignatures

/-! The webhook ingress of the API, from await to await: `WebhooksController.ingest`, the signatures
of its four providers, and `WebhookRouterService` between its table and the event bus. -/

namespace WebhookIngress

open JsText JsJson StepMachine JobQueue Ownership
open Calendar (Timestamp toISOString)
open Events (EventEnvelope CorrelationContext DeliveryPolicy Runtime buildEnvelope guardKey jobIdOf)
open Webhooks (Digest fromHex toHex safeEqual verifyStripe stripeHeader)

abbrev Bytes := List UInt8

inductive WebhookProvider
  | discord
  | github
  | stripe
  | fivem
  deriving DecidableEq

def WebhookProvider.text : WebhookProvider → JsString
  | discord => js "discord"
  | github => js "github"
  | stripe => js "stripe"
  | fivem => js "fivem"

def providers : List WebhookProvider := [.discord, .github, .stripe, .fivem]

inductive HeaderValue
  | single (value : JsString)
  | several (values : List JsString)
  deriving DecidableEq

structure Request where
  provider : JsString
  rawBody : Option Bytes
  body : Option Json
  headers : List (JsString × HeaderValue)
  ip : Option JsString
  requestId : JsString
  context : CorrelationContext

structure WebhooksConfig where
  enabledProviders : List WebhookProvider
  maxBodyBytes : Nat

/-! `SignatureVerifier` -/

/-- The secrets of the environment, and the primitives of Node: a keyed SHA-256, and the check of an
Ed25519 signature, which may throw. -/
structure Verifier where
  secret : JsString → Option JsString
  hmac : JsString → Bytes → Digest
  ed25519 : Bytes → Bytes → Bytes → Option Bool

def Request.header (request : Request) (name : JsString) : Option JsString :=
  match request.headers.lookup name with
  | some (.single value) => some value
  | some (.several values) => values.head?
  | none => none

/-- A text that is there and not empty. -/
def given (text : Option JsString) : Option JsString := text.filter fun value => value ≠ []

def spkiPrefix : Bytes := fromHex (js "302a300506032b6570032100")

section

variable (verifier : Verifier) (request : Request) (rawBody : Bytes)

def verifyDiscord : Bool :=
  match given (request.header (js "x-signature-ed25519")),
      given (request.header (js "x-signature-timestamp")),
      given (verifier.secret (js "DISCORD_PUBLIC_KEY")) with
  | some signature, some timestamp, some publicKey =>
      (verifier.ed25519 (spkiPrefix ++ fromHex publicKey) (Utf8.encode timestamp ++ rawBody)
        (fromHex signature)).getD false
  | _, _, _ => false

/-- A keyed hash of the raw body in hexadecimal behind a mark; GitHub and FiveM differ in the names
and in the mark. -/
def verifyHmac (headerName secretName mark : JsString) : Bool :=
  match given (request.header headerName), given (verifier.secret secretName) with
  | some provided, some secret =>
      safeEqual provided (mark ++ toHex (verifier.hmac secret rawBody).val)
  | _, _ => false

def verifyGithub : Bool :=
  verifyHmac verifier request rawBody (js "x-hub-signature-256") (js "GITHUB_WEBHOOK_SECRET")
    (js "sha256=")

def verifyFivem : Bool :=
  verifyHmac verifier request rawBody (js "x-fivem-signature") (js "FIVEM_WEBHOOK_SECRET") []

def verify : WebhookProvider → Bool
  | .discord => verifyDiscord verifier request rawBody
  | .github => verifyGithub verifier request rawBody
  | .stripe =>
      match request.header stripeHeader, verifier.secret (js "STRIPE_WEBHOOK_SECRET") with
      | some value, some secret => verifyStripe verifier.hmac secret rawBody value
      | _, _ => false
  | .fivem => verifyFivem verifier request rawBody

end

/-! What the controller reads off a request. -/

/-- `req.body ?? {}` -/
def Request.payload (request : Request) : Json :=
  match request.body with
  | none | some .null => .obj []
  | some body => body

def Request.bytes (request : Request) : Bytes :=
  request.rawBody.getD (Utf8.encode (stringify request.payload))

/-- `payload[first] ?? payload[second]`, where it is a text. -/
def textAt (payload : Json) (first second : JsString) : Option JsString :=
  match payload with
  | .obj fields =>
      let value (name : JsString) : Option Json :=
        match fields.lookup name with
        | some .null | none => none
        | some value => some value
      match (value first).or (value second) with
      | some (.str text) => some text
      | _ => none
  | _ => none

def unknown : JsString := js "unknown"

def eventType (provider : WebhookProvider) (request : Request) : JsString :=
  if provider = .github then
    match request.headers.lookup (js "x-github-event") with
    | some (.single value) => value
    | _ => unknown
  else (textAt request.payload (js "type") (js "event")).getD unknown

def guildId (request : Request) : Option JsString :=
  textAt request.payload (js "guild_id") (js "guildId")

def signatureHeader : WebhookProvider → JsString
  | .discord => js "x-signature-ed25519"
  | .github => js "x-hub-signature-256"
  | .stripe => js "stripe-signature"
  | .fivem => js "x-fivem-signature"

def signature (provider : WebhookProvider) (request : Request) : Option JsString :=
  match request.headers.lookup (signatureHeader provider) with
  | some (.single value) => some value
  | _ => none

/-! The table of the deliveries. -/

inductive DeliveryStatus
  | received
  | processed
  | failed
  deriving DecidableEq

structure DeliveryRow where
  id : JsString
  provider : JsString
  eventType : JsString
  guildId : Option JsString
  signature : Option JsString
  status : DeliveryStatus
  attempts : Nat
  payload : Json
  error : Option JsString
  requestId : JsString
  receivedAt : Timestamp
  processedAt : Option Timestamp
  deriving DecidableEq

abbrev Deliveries := Table DeliveryRow.id

def newRow (provider : WebhookProvider) (request : Request) (id : JsString) (now : Timestamp) :
    DeliveryRow :=
  { id, provider := provider.text, eventType := eventType provider request
    guildId := guildId request, signature := signature provider request, status := .received
    attempts := 0, payload := request.payload, error := none, requestId := request.requestId
    receivedAt := now, processedAt := none }

def DeliveryRow.processed (row : DeliveryRow) (now : Timestamp) : DeliveryRow :=
  { row with status := .processed, processedAt := some now }

def DeliveryRow.failed (row : DeliveryRow) (message : JsString) : DeliveryRow :=
  { row with status := .failed, error := some message, attempts := row.attempts + 1 }

def markProcessed (deliveries : Deliveries) (id : JsString) (now : Timestamp) : Option Deliveries :=
  deliveries.change id (fun row => row.processed now) fun _ => rfl

def markFailed (deliveries : Deliveries) (id message : JsString) : Option Deliveries :=
  deliveries.change id (fun row => row.failed message) fun _ => rfl

/-! `publish` from await to await. -/

/-- An await returns, or it throws when what it asked for has or has not been done. -/
inductive Outcome
  | done
  | threw (took : Bool) (message : JsString)

def Outcome.takes : Outcome → Bool
  | done => true
  | threw took _ => took

inductive PublishStage
  | checking
  | marking
  | persisting
  | dispatching
  | enqueueing
  | published
  | failed (message : JsString)
  deriving DecidableEq

def afterPersisting (delivery : DeliveryPolicy) : PublishStage :=
  if delivery.usesSync then .dispatching else .enqueueing

def afterGuard (delivery : DeliveryPolicy) : PublishStage :=
  if delivery.usesAsync then .persisting else .dispatching

def firstStage (envelope : EventEnvelope) (delivery : DeliveryPolicy) : PublishStage :=
  if (guardKey envelope).isSome then .checking else afterGuard delivery

/-- What an await of `publish` is for. -/
def asks (runtime : Runtime) (envelope : EventEnvelope) (delivery : DeliveryPolicy) :
    PublishStage → Runtime
  | .marking => Events.markSeen runtime ((guardKey envelope).getD [])
  | .persisting => Events.persist runtime envelope delivery
  | .dispatching => Events.dispatch runtime envelope
  | .enqueueing => Events.enqueue runtime envelope
  | .checking | .published | .failed _ => runtime

def goesOn (runtime : Runtime) (envelope : EventEnvelope) (delivery : DeliveryPolicy) :
    PublishStage → PublishStage
  | .checking =>
      if Events.isDuplicate runtime ((guardKey envelope).getD []) then .published else .marking
  | .marking => afterGuard delivery
  | .persisting => afterPersisting delivery
  | .dispatching => if delivery.usesAsync then .enqueueing else .published
  | .enqueueing | .published => .published
  | .failed message => .failed message

def publishNext (runtime : Runtime) (envelope : EventEnvelope) (delivery : DeliveryPolicy)
    (outcome : Outcome) (stage : PublishStage) : Runtime × PublishStage :=
  (if outcome.takes then asks runtime envelope delivery stage else runtime,
    match outcome with
    | .done => goesOn runtime envelope delivery stage
    | .threw _ message => .failed message)

/-! The calls. -/

inductive Refusal
  | unknownProvider
  | providerDisabled
  | tooLarge
  | signature
  deriving DecidableEq

def Refusal.message : Refusal → JsString
  | unknownProvider => js "Unknown webhook provider."
  | providerDisabled => js "Webhook provider not enabled."
  | tooLarge => js "Webhook payload too large."
  | signature => js "Webhook signature verification failed."

inductive Phase
  | verifying (provider : WebhookProvider)
  | reporting (envelope : EventEnvelope) (stage : PublishStage)
  | creating (provider : WebhookProvider)
  | routing (envelope : EventEnvelope) (stage : PublishStage)
  | completing
  | failing (message : JsString)
  | accepted
  | refused (refusal : Refusal)
  | threw
  deriving DecidableEq

/-- A call of `ingest`, with the id that it drew: of its row, or of the event that reports it. -/
structure Call where
  request : Request
  drew : Option JsString
  phase : Phase

/-- The checks before the first await. -/
def opening (config : WebhooksConfig) (request : Request) : Except Refusal WebhookProvider :=
  match providers.find? fun provider => provider.text = request.provider with
  | none => .error .unknownProvider
  | some provider =>
      if !config.enabledProviders.contains provider then .error .providerDisabled
      else if config.maxBodyBytes < request.bytes.length then .error .tooLarge
      else .ok provider

def apiActor : Events.EventActor := { type := .api, id := js "webhook", username := none }

def authFailed : JsString := js "api.auth.failed"

def webhookReceived : JsString := js "api.webhook.received"

def textOrNull (text : Option JsString) : Json := text.elim .null .str

def reportEnvelope (call : Call) (id : JsString) (now : Timestamp) : EventEnvelope :=
  buildEnvelope id now call.request.context authFailed
    (.obj [(js "method", .str (js "api-key")),
      (js "reason", .str (js "webhook_signature_invalid:" ++ call.request.provider)),
      (js "ip", textOrNull call.request.ip), (js "requestId", .str call.request.requestId)])
    { Events.PublishOptions.empty with actor := some apiActor }

def receivedPayload (row : DeliveryRow) : Json :=
  .obj [(js "provider", .str row.provider), (js "eventType", .str row.eventType),
    (js "guildId", textOrNull row.guildId), (js "deliveryId", .str row.id),
    (js "requestId", .str row.requestId), (js "receivedAt", .str (toISOString row.receivedAt))]

def receivedEnvelope (context : CorrelationContext) (row : DeliveryRow) (id : JsString)
    (now : Timestamp) : EventEnvelope :=
  buildEnvelope id now context webhookReceived (receivedPayload row)
    { Events.PublishOptions.empty with
      guildId := row.guildId, actor := some apiActor, idempotencyKey := some row.id }

def deliveryPolicy (envelope : EventEnvelope) : DeliveryPolicy :=
  (Events.getEventPolicy envelope.name).delivery

structure State where
  deliveries : Deliveries
  runtime : Runtime
  calls : List Call

def State.start (registries : Events.Registries) : State :=
  { deliveries := Table.empty, runtime := .start registries, calls := [] }

inductive Action
  | receive (request : Request)
  | advance (index : Nat) (outcome : Outcome) (id envelopeId : JsString) (now : Timestamp)

/-- Ids are drawn at random, and no two calls draw the same. -/
def State.fresh (state : State) (id : JsString) : Bool :=
  state.calls.all fun call => call.drew ≠ some id

def reportPhase (envelope : EventEnvelope) : PublishStage → Phase
  | .published => .refused .signature
  | .failed _ => .threw
  | stage => .reporting envelope stage

def routePhase (envelope : EventEnvelope) : PublishStage → Phase
  | .published => .completing
  | .failed message => .failing message
  | stage => .routing envelope stage

/-- What a call does up to its next await. -/
def next (verifier : Verifier) (state : State) (call : Call) (outcome : Outcome)
    (id envelopeId : JsString) (now : Timestamp) : Option (Deliveries × Runtime × Call) :=
  match call.phase with
  | .verifying provider =>
      match outcome with
      | .threw _ _ => some (state.deliveries, state.runtime, { call with phase := .threw })
      | .done =>
          if verify verifier call.request call.request.bytes provider then
            some (state.deliveries, state.runtime, { call with phase := .creating provider })
          else if state.fresh id then
            let envelope := reportEnvelope call id now
            some (state.deliveries, state.runtime,
              { call with
                drew := some id
                phase := reportPhase envelope (firstStage envelope (deliveryPolicy envelope)) })
          else none
  | .reporting envelope stage =>
      let published := publishNext state.runtime envelope (deliveryPolicy envelope) outcome stage
      some (state.deliveries, published.1, { call with phase := reportPhase envelope published.2 })
  | .creating provider =>
      if state.fresh id then
        let row := newRow provider call.request id now
        let envelope := receivedEnvelope call.request.context row envelopeId now
        match outcome with
        | .threw took _ =>
            some ((if took then state.deliveries.insert row else none).getD state.deliveries,
              state.runtime, { call with drew := some id, phase := .threw })
        | .done =>
            (state.deliveries.insert row).map fun deliveries =>
              (deliveries, state.runtime,
                { call with
                  drew := some id
                  phase := routePhase envelope (firstStage envelope (deliveryPolicy envelope)) })
      else none
  | .routing envelope stage =>
      let published := publishNext state.runtime envelope (deliveryPolicy envelope) outcome stage
      some (state.deliveries, published.1, { call with phase := routePhase envelope published.2 })
  | .completing =>
      let marked := markProcessed state.deliveries (call.drew.getD []) now
      match outcome with
      | .threw took message =>
          some ((if took then marked else none).getD state.deliveries, state.runtime,
            { call with phase := .failing message })
      | .done =>
          marked.map fun deliveries =>
            (deliveries, state.runtime, { call with phase := .accepted })
  | .failing message =>
      let marked := markFailed state.deliveries (call.drew.getD []) message
      match outcome with
      | .threw took _ =>
          some ((if took then marked else none).getD state.deliveries, state.runtime,
            { call with phase := .threw })
      | .done =>
          marked.map fun deliveries =>
            (deliveries, state.runtime, { call with phase := .accepted })
  | _ => none

def step (config : WebhooksConfig) (verifier : Verifier) (state : State) : Action → Option State
  | .receive request =>
      let phase := match opening config request with
        | .error refusal => .refused refusal
        | .ok provider => .verifying provider
      some { state with calls := state.calls ++ [{ request, drew := none, phase }] }
  | .advance index outcome id envelopeId now =>
      match state.calls[index]? with
      | some call =>
          (next verifier state call outcome id envelopeId now).map fun after =>
            { deliveries := after.1, runtime := after.2.1
              calls := state.calls.set index after.2.2 }
      | none => none

/-! What the table and the bus hold under an id. -/

structure View where
  row : Option DeliveryRow
  logged : List EventEnvelope
  queued : List EventEnvelope
  seen : Bool
  taken : Bool

def about (key : JsString) (envelope : EventEnvelope) : Bool :=
  envelope.idempotencyKey = some key

def viewOf (deliveries : Deliveries) (runtime : Runtime) (key : JsString) : View :=
  { row := deliveries.find key
    logged := (runtime.eventLog.map Prod.fst).filter (about key)
    queued := (runtime.queue.map Job.data).filter (about key)
    seen := runtime.seen.contains key
    taken := (ids runtime.queue).contains key }

def State.view (state : State) : JsString → View := viewOf state.deliveries state.runtime

/-- Neither a row nor an event has the id. -/
structure Silent (view : View) : Prop where
  row : view.row = none
  logged : view.logged = []
  queued : view.queued = []

structure Vacant (view : View) : Prop extends Silent view where
  seen : view.seen = false
  taken : view.taken = false

/-- The request passes every check of the controller. -/
structure Vetted (config : WebhooksConfig) (verifier : Verifier) (request : Request)
    (provider : WebhookProvider) : Prop where
  opened : opening config request = .ok provider
  verified : verify verifier request request.bytes provider = true

/-- The row says what the request says. -/
def Stored (provider : WebhookProvider) (request : Request) (row : DeliveryRow) : Prop :=
  row = { newRow provider request row.id row.receivedAt with
    status := row.status, attempts := row.attempts, error := row.error
    processedAt := row.processedAt }

structure Announces (row : DeliveryRow) (envelope : EventEnvelope) : Prop where
  name : envelope.name = webhookReceived
  payload : envelope.payload = receivedPayload row
  guildId : envelope.guildId = row.guildId
  key : envelope.idempotencyKey = some row.id

structure Handed (view : View) (envelope : EventEnvelope) : Prop where
  logged : view.logged = [envelope]
  queued : view.queued = [envelope]

/-- What is left of a publish, whether it came to its end or not. -/
structure Partly (view : View) (envelope : EventEnvelope) : Prop where
  logged : view.logged = [] ∨ view.logged = [envelope]
  queued : view.queued = [] ∨ Handed view envelope

/-- What the status of a row says of the bus. -/
structure Settled (view : View) (row : DeliveryRow) (envelope : EventEnvelope) : Prop where
  received : row.status = .received → row.attempts = 0 ∧ row.error = none
  processed : row.status = .processed → row.attempts = 0 ∧ Handed view envelope
  failed : row.status = .failed → row.attempts = 1 ∧ row.error ≠ none

structure Recorded (config : WebhooksConfig) (verifier : Verifier) (request : Request)
    (provider : WebhookProvider) (row : DeliveryRow) (envelope : EventEnvelope) (view : View) :
    Prop where
  vetted : Vetted config verifier request provider
  found : view.row = some row
  stored : Stored provider request row
  announces : Announces row envelope
  partly : Partly view envelope
  settled : Settled view row envelope

/-- How far a publish that is under way has come. -/
def StageHeld (view : View) (envelope : EventEnvelope) : PublishStage → Prop
  | .checking =>
      view.seen = false ∧ guardKey envelope = envelope.idempotencyKey ∧ view.logged = [] ∧
        view.queued = [] ∧ view.taken = false
  | .marking =>
      guardKey envelope = envelope.idempotencyKey ∧ view.logged = [] ∧ view.queued = [] ∧
        view.taken = false
  | .persisting => view.logged = [] ∧ view.queued = [] ∧ view.taken = false
  | .dispatching | .enqueueing =>
      view.logged = [envelope] ∧ view.queued = [] ∧ view.taken = false
  | .published => Handed view envelope
  | .failed _ => True

section

variable (config : WebhooksConfig) (verifier : Verifier)

/-- What holds of the id that a call has drawn. -/
def Holds (call : Call) (view : View) : Prop :=
  match call.phase with
  | .verifying _ | .creating _ => False
  | .reporting envelope stage =>
      Silent view ∧ envelope.name = authFailed ∧ envelope.idempotencyKey = none ∧
        some envelope.id = call.drew ∧ (stage = .persisting ∨ stage = .enqueueing)
  | .routing envelope stage => ∃ provider row,
      Recorded config verifier call.request provider row envelope view ∧
        row.status = .received ∧ StageHeld view envelope stage ∧
        ∀ message, stage ≠ .failed message
  | .completing => ∃ provider row envelope,
      Recorded config verifier call.request provider row envelope view ∧
        row.status = .received ∧ Handed view envelope
  | .failing _ => ∃ provider row envelope,
      Recorded config verifier call.request provider row envelope view ∧ row.status ≠ .failed
  | .accepted => ∃ provider row envelope,
      Recorded config verifier call.request provider row envelope view ∧ row.status ≠ .received
  | .refused _ => Silent view
  | .threw => Silent view ∨ ∃ provider row envelope,
      Recorded config verifier call.request provider row envelope view

/-- What holds of a call by itself. -/
def Stands (call : Call) : Prop :=
  match call.phase with
  | .verifying provider => opening config call.request = .ok provider ∧ call.drew = none
  | .creating provider => Vetted config verifier call.request provider ∧ call.drew = none
  | .reporting _ _ | .routing _ _ | .completing | .failing _ | .accepted => call.drew ≠ none
  | .refused _ | .threw => True

structure Kept (state : State) : Prop where
  owned : Owned Call.drew (Holds config verifier) Vacant state.calls state.view
  stands : ∀ call ∈ state.calls, Stands config verifier call

end

/-! What each write does to what an id shows. -/

theorem viewOf_markSeen (deliveries : Deliveries) (runtime : Runtime) (marked key : JsString) :
    viewOf deliveries (Events.markSeen runtime marked) key =
      { viewOf deliveries runtime key with
        seen := (viewOf deliveries runtime key).seen || decide (key = marked) } := by
  simp [viewOf, Events.markSeen, Bool.or_comm]

theorem viewOf_persist (deliveries : Deliveries) (runtime : Runtime) (envelope : EventEnvelope)
    (delivery : DeliveryPolicy) (key : JsString) :
    viewOf deliveries (Events.persist runtime envelope delivery) key =
      { viewOf deliveries runtime key with
        logged := (viewOf deliveries runtime key).logged ++ [envelope].filter (about key) } := by
  simp [viewOf, Events.persist]

theorem viewOf_dispatch (deliveries : Deliveries) (runtime : Runtime) (envelope : EventEnvelope)
    (key : JsString) :
    viewOf deliveries (Events.dispatch runtime envelope) key = viewOf deliveries runtime key := rfl

theorem viewOf_enqueue (deliveries : Deliveries) (runtime : Runtime) (envelope : EventEnvelope)
    (key : JsString) :
    viewOf deliveries (Events.enqueue runtime envelope) key =
      if jobIdOf envelope ∈ ids runtime.queue then viewOf deliveries runtime key
      else
        { viewOf deliveries runtime key with
          queued := (viewOf deliveries runtime key).queued ++ [envelope].filter (about key)
          taken := (viewOf deliveries runtime key).taken || decide (key = jobIdOf envelope) } := by
  unfold Events.enqueue add
  split
  · rfl
  · simp [viewOf, ids]

theorem viewOf_publishNext_other {deliveries : Deliveries} {runtime : Runtime}
    {envelope : EventEnvelope} {delivery : DeliveryPolicy} {stage : PublishStage} {key : JsString}
    (outcome : Outcome) (notJob : key ≠ jobIdOf envelope) (notAbout : about key envelope = false)
    (notMarked : stage = .marking → key ≠ (guardKey envelope).getD []) :
    viewOf deliveries (publishNext runtime envelope delivery outcome stage).1 key =
      viewOf deliveries runtime key := by
  unfold publishNext
  dsimp only
  split
  · cases stage with
    | marking =>
        have apart : key ≠ (guardKey envelope).getD [] := notMarked rfl
        simp [asks, viewOf_markSeen, apart]
    | persisting => simp [asks, viewOf_persist, notAbout]
    | enqueueing =>
        rw [asks, viewOf_enqueue]
        split
        · rfl
        · simp [notAbout, notJob]
    | checking | dispatching | published | failed message => rfl
  · rfl

/-- The runtime after a step of a publish that took, and the stage after one that returned. -/
theorem publishNext_cases (runtime : Runtime) (envelope : EventEnvelope) (delivery : DeliveryPolicy)
    (outcome : Outcome) (stage : PublishStage) :
    ((publishNext runtime envelope delivery outcome stage).1 = runtime ∨
      (publishNext runtime envelope delivery outcome stage).1 =
        (publishNext runtime envelope delivery .done stage).1) ∧
    (publishNext runtime envelope delivery outcome stage =
        publishNext runtime envelope delivery .done stage ∨
      ∃ message, (publishNext runtime envelope delivery outcome stage).2 = .failed message) := by
  cases outcome with
  | done => exact ⟨.inr rfl, .inl rfl⟩
  | threw took message =>
      refine ⟨?_, .inr ⟨message, rfl⟩⟩
      cases took with
      | false => exact .inl rfl
      | true => exact .inr rfl

/-- A publish under a key that nobody else has comes from stage to stage. -/
theorem stageHeld_done {deliveries : Deliveries} {runtime : Runtime} {envelope : EventEnvelope}
    {stage : PublishStage} {own : JsString} (isKey : envelope.idempotencyKey = some own)
    (held : StageHeld (viewOf deliveries runtime own) envelope stage) :
    StageHeld (viewOf deliveries (publishNext runtime envelope .both .done stage).1 own) envelope
      (publishNext runtime envelope .both .done stage).2 := by
  have isAbout : about own envelope = true := by simp [about, isKey]
  have isJob : jobIdOf envelope = own := by simp [jobIdOf, isKey]
  simp only [publishNext, Outcome.takes, if_true]
  cases stage with
  | checking =>
      obtain ⟨unseen, guarded, logged, queued, free⟩ := held
      have notDuplicate : Events.isDuplicate runtime own = false := by
        simpa [viewOf, Events.isDuplicate] using unseen
      simp only [goesOn, guarded, isKey, Option.getD_some, notDuplicate]
      exact ⟨guarded, logged, queued, free⟩
  | marking =>
      obtain ⟨guarded, logged, queued, free⟩ := held
      rw [asks, viewOf_markSeen]
      exact ⟨logged, queued, free⟩
  | persisting =>
      obtain ⟨logged, queued, free⟩ := held
      rw [asks, viewOf_persist]
      refine ⟨?_, queued, free⟩
      simp [logged, isAbout]
  | dispatching =>
      obtain ⟨logged, queued, free⟩ := held
      exact ⟨logged, queued, free⟩
  | enqueueing =>
      obtain ⟨logged, queued, free⟩ := held
      have untaken : own ∉ ids runtime.queue := by simpa [viewOf] using free
      rw [asks, viewOf_enqueue, isJob, if_neg untaken]
      refine ⟨logged, ?_⟩
      simp [queued, isAbout]
  | published => exact held
  | failed message => trivial

theorem StageHeld.partly {view : View} {envelope : EventEnvelope} {stage : PublishStage}
    (held : StageHeld view envelope stage) (going : ∀ message, stage ≠ .failed message) :
    Partly view envelope := by
  cases stage with
  | checking => exact ⟨.inl held.2.2.1, .inl held.2.2.2.1⟩
  | marking => exact ⟨.inl held.2.1, .inl held.2.2.1⟩
  | persisting => exact ⟨.inl held.1, .inl held.2.1⟩
  | dispatching | enqueueing => exact ⟨.inr held.1, .inl held.2.1⟩
  | published => exact ⟨.inr held.logged, .inr held⟩
  | failed message => exact absurd rfl (going message)

theorem done_not_failed {runtime : Runtime} {envelope : EventEnvelope} {delivery : DeliveryPolicy}
    {stage : PublishStage} (going : ∀ message, stage ≠ .failed message) (message : JsString) :
    (publishNext runtime envelope delivery .done stage).2 ≠ .failed message := by
  cases stage with
  | failed other => exact absurd rfl (going other)
  | enqueueing | published => exact PublishStage.noConfusion
  | checking | marking | persisting | dispatching =>
      simp only [publishNext, goesOn, afterGuard, afterPersisting]
      split <;> exact PublishStage.noConfusion

theorem stageHeld_publishNext {deliveries : Deliveries} {runtime : Runtime}
    {envelope : EventEnvelope} {stage : PublishStage} {own : JsString}
    (isKey : envelope.idempotencyKey = some own) (outcome : Outcome)
    (going : ∀ message, stage ≠ .failed message)
    (held : StageHeld (viewOf deliveries runtime own) envelope stage) :
    StageHeld (viewOf deliveries (publishNext runtime envelope .both outcome stage).1 own) envelope
        (publishNext runtime envelope .both outcome stage).2 ∧
      Partly (viewOf deliveries (publishNext runtime envelope .both outcome stage).1 own)
        envelope := by
  have done := stageHeld_done isKey held
  obtain ⟨runtimes, stages⟩ := publishNext_cases runtime envelope .both outcome stage
  constructor
  · rcases stages with same | ⟨message, isFailed⟩
    · rw [same]
      exact done
    · rw [isFailed]
      trivial
  · rcases runtimes with same | same
    · rw [same]
      exact held.partly going
    · rw [same]
      exact done.partly (done_not_failed going)

/-! One step of a call. -/

variable {config : WebhooksConfig} {verifier : Verifier} {state : State}

theorem Kept.set (kept : Kept config verifier state) {index : Nat} {call after : Call}
    (at_ : state.calls[index]? = some call) {deliveries : Deliveries} {runtime : Runtime}
    (owners : after.drew = call.drew ∨ call.drew = none ∧ ∃ id, after.drew = some id ∧
      state.fresh id = true)
    (frame : ∀ key, after.drew ≠ some key → viewOf deliveries runtime key = state.view key)
    (own : ∀ key, after.drew = some key →
      Holds config verifier after (viewOf deliveries runtime key))
    (stands : Stands config verifier after) :
    Kept config verifier { deliveries, runtime, calls := state.calls.set index after } where
  owned := by
    refine kept.owned.set at_ ?_ frame own
    rcases owners with same | ⟨none, id, drew, fresh⟩
    · exact .inl same
    · refine .inr ⟨none, fun key isKey other member => ?_⟩
      rw [drew] at isKey
      obtain rfl := Option.some.inj isKey
      simpa using List.all_eq_true.mp fresh other member
  stands other member := by
    rcases List.mem_or_eq_of_mem_set member with earlier | rfl
    · exact kept.stands other earlier
    · exact stands

/-- A call without an id goes on without one, and writes nothing. -/
theorem Kept.pass (kept : Kept config verifier state) {index : Nat} {call after : Call}
    (at_ : state.calls[index]? = some call) (before : call.drew = none) (free : after.drew = none)
    (stands : Stands config verifier after) :
    Kept config verifier { state with calls := state.calls.set index after } := by
  refine kept.set at_ (.inl (free.trans before.symm)) (fun _ _ => rfl) ?_ stands
  intro key isKey
  rw [free] at isKey
  cases isKey

/-- Nothing is known under an id that has just been drawn. -/
theorem Kept.vacant (kept : Kept config verifier state) {id : JsString}
    (fresh : state.fresh id = true) : Vacant (state.view id) :=
  kept.owned.others id fun call member => by
    simpa using List.all_eq_true.mp fresh call member

theorem policy_authFailed : Events.getEventPolicy authFailed =
    { delivery := .async, idempotent := false, fireAndForget := true } := by
  decide +kernel

theorem policy_webhookReceived : Events.getEventPolicy webhookReceived =
    { delivery := .both, idempotent := true, fireAndForget := false } := by
  decide +kernel

theorem deliveryPolicy_authFailed {envelope : EventEnvelope} (isName : envelope.name = authFailed) :
    deliveryPolicy envelope = .async := by
  rw [deliveryPolicy, isName, policy_authFailed]

theorem deliveryPolicy_webhookReceived {envelope : EventEnvelope}
    (isName : envelope.name = webhookReceived) : deliveryPolicy envelope = .both := by
  rw [deliveryPolicy, isName, policy_webhookReceived]

theorem guardKey_authFailed {envelope : EventEnvelope} (isName : envelope.name = authFailed) :
    guardKey envelope = none := by
  rw [guardKey, isName, policy_authFailed]
  rfl

theorem guardKey_webhookReceived {envelope : EventEnvelope}
    (isName : envelope.name = webhookReceived) :
    guardKey envelope = envelope.idempotencyKey.filter fun key => key != [] := by
  rw [guardKey, isName, policy_webhookReceived]
  rfl

theorem Silent.publishNext {deliveries : Deliveries} {runtime : Runtime} {envelope : EventEnvelope}
    {key : JsString} (delivery : DeliveryPolicy) (stage : PublishStage) (outcome : Outcome)
    (unkeyed : envelope.idempotencyKey = none) (silent : Silent (viewOf deliveries runtime key)) :
    Silent (viewOf deliveries (publishNext runtime envelope delivery outcome stage).1 key) := by
  have notAbout : about key envelope = false := by simp [about, unkeyed]
  have asked : Silent (viewOf deliveries (asks runtime envelope delivery stage) key) := by
    cases stage with
    | marking =>
        rw [asks, viewOf_markSeen]
        exact ⟨silent.row, silent.logged, silent.queued⟩
    | persisting =>
        rw [asks, viewOf_persist]
        exact ⟨silent.row, by simp [silent.logged, notAbout], silent.queued⟩
    | enqueueing =>
        rw [asks, viewOf_enqueue]
        split
        · exact silent
        · exact ⟨silent.row, silent.logged, by simp [silent.queued, notAbout]⟩
    | checking | dispatching | published | failed message => exact silent
  unfold WebhookIngress.publishNext
  dsimp only
  split
  · exact asked
  · exact silent

theorem kept_verifying (kept : Kept config verifier state) {index : Nat} {call : Call}
    (at_ : state.calls[index]? = some call) {provider : WebhookProvider}
    (isPhase : call.phase = .verifying provider) {outcome : Outcome} {id envelopeId : JsString}
    {now : Timestamp} {after : Deliveries × Runtime × Call}
    (taken : next verifier state call outcome id envelopeId now = some after) :
    Kept config verifier
      { deliveries := after.1, runtime := after.2.1
        calls := state.calls.set index after.2.2 } := by
  have stands := kept.stands call (List.mem_of_getElem? at_)
  rw [Stands, isPhase] at stands
  obtain ⟨opened, free⟩ := stands
  rw [next, isPhase] at taken
  cases outcome with
  | threw took message =>
      obtain rfl := Option.some.inj taken
      exact kept.pass at_ free free trivial
  | done =>
      dsimp only at taken
      split at taken
      · rename_i verified
        obtain rfl := Option.some.inj taken
        exact kept.pass at_ free free ⟨⟨opened, verified⟩, free⟩
      · split at taken
        · rename_i fresh
          obtain rfl := Option.some.inj taken
          have isStage : firstStage (reportEnvelope call id now)
              (deliveryPolicy (reportEnvelope call id now)) = .persisting := by
            rw [firstStage, guardKey_authFailed rfl, deliveryPolicy_authFailed rfl]
            rfl
          rw [isStage]
          refine kept.set at_ (.inr ⟨free, id, rfl, fresh⟩) (fun _ _ => rfl) ?_ ?_
          · intro key isKey
            obtain rfl := Option.some.inj isKey
            exact ⟨(kept.vacant fresh).toSilent, rfl, rfl, rfl, .inl rfl⟩
          · exact Option.some_ne_none id
        · cases taken

theorem kept_reporting (kept : Kept config verifier state) {index : Nat} {call : Call}
    (at_ : state.calls[index]? = some call) {envelope : EventEnvelope} {stage : PublishStage}
    (isPhase : call.phase = .reporting envelope stage) {outcome : Outcome}
    {id envelopeId : JsString} {now : Timestamp} {after : Deliveries × Runtime × Call}
    (taken : next verifier state call outcome id envelopeId now = some after) :
    Kept config verifier
      { deliveries := after.1, runtime := after.2.1
        calls := state.calls.set index after.2.2 } := by
  have stands := kept.stands call (List.mem_of_getElem? at_)
  rw [Stands, isPhase] at stands
  obtain ⟨own, drew⟩ := Option.ne_none_iff_exists'.mp stands
  have holds := kept.owned.kept call (List.mem_of_getElem? at_) own drew
  rw [Holds, isPhase] at holds
  obtain ⟨silent, isName, unkeyed, isOwn, atStage⟩ := holds
  rw [drew] at isOwn
  have isJob : jobIdOf envelope = own := by
    rw [jobIdOf, unkeyed]
    exact Option.some.inj isOwn
  rw [next, isPhase] at taken
  obtain rfl := Option.some.inj taken
  refine kept.set at_ (.inl rfl) ?_ ?_ ?_
  · intro key notOwn
    refine viewOf_publishNext_other outcome ?_ (by simp [about, unkeyed]) ?_
    · rintro rfl
      exact notOwn (drew.trans (congrArg some isJob.symm))
    · rintro rfl
      rcases atStage with impossible | impossible <;> cases impossible
  · intro key isKey
    obtain rfl : own = key := Option.some.inj (drew.symm.trans isKey)
    have stays := silent.publishNext (deliveryPolicy envelope) stage outcome unkeyed
    obtain ⟨-, stages⟩ :=
      publishNext_cases state.runtime envelope (deliveryPolicy envelope) outcome stage
    rcases stages with same | ⟨message, isFailed⟩
    · rw [same] at stays ⊢
      rcases atStage with rfl | rfl
      · have onwards : (publishNext state.runtime envelope (deliveryPolicy envelope) .done
            .persisting).2 = .enqueueing := by
          rw [deliveryPolicy_authFailed isName]
          rfl
        dsimp only
        rw [onwards]
        exact ⟨stays, isName, unkeyed, isOwn.trans drew.symm, .inr rfl⟩
      · exact stays
    · dsimp only
      rw [isFailed]
      exact .inl stays
  · unfold reportPhase
    split
    · trivial
    · trivial
    · exact stands

theorem viewOf_insert_self {deliveries later : Deliveries} {row : DeliveryRow}
    (inserted : deliveries.insert row = some later) (runtime : Runtime) :
    viewOf later runtime row.id = { viewOf deliveries runtime row.id with row := some row } := by
  simp only [viewOf, Table.find_insert inserted, if_true]

theorem viewOf_insert_other {deliveries later : Deliveries} {row : DeliveryRow}
    (inserted : deliveries.insert row = some later) (runtime : Runtime) {key : JsString}
    (apart : row.id ≠ key) : viewOf later runtime key = viewOf deliveries runtime key := by
  simp only [viewOf, Table.find_insert inserted, if_neg apart]

theorem viewOf_change {deliveries later : Deliveries} {own : JsString}
    {change : DeliveryRow → DeliveryRow} {sameKey : ∀ row, (change row).id = row.id}
    (changed : deliveries.change own change sameKey = some later) (runtime : Runtime)
    (key : JsString) :
    viewOf later runtime key =
      { viewOf deliveries runtime key with
        row := (viewOf deliveries runtime key).row.map fun row =>
          if key = own then change row else row } := by
  simp only [viewOf, (Table.find_change changed).2]

/-- The row of a call right after it was written. -/
theorem recorded_created {request : Request} {provider : WebhookProvider}
    (vetted : Vetted config verifier request provider) {view : View} (vacant : Vacant view)
    (id envelopeId : JsString) (now : Timestamp) :
    Recorded config verifier request provider (newRow provider request id now)
      (receivedEnvelope request.context (newRow provider request id now) envelopeId now)
      { view with row := some (newRow provider request id now) } where
  vetted := vetted
  found := rfl
  stored := rfl
  announces := ⟨rfl, rfl, rfl, rfl⟩
  partly := ⟨.inl vacant.logged, .inl vacant.queued⟩
  settled := by
    constructor
    · exact fun _ => ⟨rfl, rfl⟩
    · exact DeliveryStatus.noConfusion
    · exact DeliveryStatus.noConfusion

theorem kept_creating (kept : Kept config verifier state) {index : Nat} {call : Call}
    (at_ : state.calls[index]? = some call) {provider : WebhookProvider}
    (isPhase : call.phase = .creating provider) {outcome : Outcome} {id envelopeId : JsString}
    {now : Timestamp} {after : Deliveries × Runtime × Call}
    (taken : next verifier state call outcome id envelopeId now = some after) :
    Kept config verifier
      { deliveries := after.1, runtime := after.2.1
        calls := state.calls.set index after.2.2 } := by
  have stands := kept.stands call (List.mem_of_getElem? at_)
  rw [Stands, isPhase] at stands
  obtain ⟨vetted, free⟩ := stands
  rw [next, isPhase] at taken
  dsimp only at taken
  split at taken
  swap
  · cases taken
  rename_i fresh
  have vacant := kept.vacant fresh
  have recorded := recorded_created vetted vacant id envelopeId now
  -- Under the other ids the new row does not show.
  have others {later : Deliveries}
      (inserted : state.deliveries.insert (newRow provider call.request id now) = some later)
      (key : JsString) (apart : some id ≠ some key) :
      viewOf later state.runtime key = state.view key :=
    viewOf_insert_other inserted _ fun same => apart (congrArg some same)
  have shown {later : Deliveries}
      (inserted : state.deliveries.insert (newRow provider call.request id now) = some later) :
      viewOf later state.runtime id =
        { state.view id with row := some (newRow provider call.request id now) } :=
    viewOf_insert_self inserted _
  cases outcome with
  | threw took message =>
      obtain rfl := Option.some.inj taken
      cases written : (if took then
          state.deliveries.insert (newRow provider call.request id now) else none) with
      | none =>
          refine kept.set at_ (.inr ⟨free, id, rfl, fresh⟩) (fun _ _ => rfl) ?_ trivial
          intro key isKey
          obtain rfl := Option.some.inj isKey
          exact .inl vacant.toSilent
      | some later =>
          have inserted : state.deliveries.insert (newRow provider call.request id now) =
              some later := by
            cases took with
            | true => exact written
            | false => cases written
          refine kept.set at_ (.inr ⟨free, id, rfl, fresh⟩) (others inserted) ?_ trivial
          intro key isKey
          obtain rfl := Option.some.inj isKey
          rw [Option.getD_some, shown inserted]
          exact .inr ⟨provider, _, _, recorded⟩
  | done =>
      obtain ⟨later, inserted, rfl⟩ := Option.map_eq_some_iff.mp taken
      have isName : (receivedEnvelope call.request.context (newRow provider call.request id now)
          envelopeId now).name = webhookReceived := rfl
      have isKey : (receivedEnvelope call.request.context (newRow provider call.request id now)
          envelopeId now).idempotencyKey = some id := rfl
      generalize receivedEnvelope call.request.context (newRow provider call.request id now)
        envelopeId now = envelope at recorded isName isKey
      have isBoth := deliveryPolicy_webhookReceived isName
      have isGuarded := guardKey_webhookReceived isName
      rw [isKey] at isGuarded
      dsimp only
      have stage : firstStage envelope (deliveryPolicy envelope) = .checking ∧
            guardKey envelope = envelope.idempotencyKey ∨
          firstStage envelope (deliveryPolicy envelope) = .persisting := by
        by_cases isEmpty : id = []
        · refine .inr ?_
          rw [firstStage, isGuarded, isBoth, isEmpty]
          rfl
        · have guarded : guardKey envelope = some id := by simp [isGuarded, isEmpty]
          refine .inl ⟨?_, guarded.trans isKey.symm⟩
          rw [firstStage, guarded]
          rfl
      have held : StageHeld { state.view id with
          row := some (newRow provider call.request id now) } envelope
          (firstStage envelope (deliveryPolicy envelope)) := by
        rcases stage with ⟨isChecking, guarded⟩ | isPersisting
        · rw [isChecking]
          exact ⟨vacant.seen, guarded, vacant.logged, vacant.queued, vacant.taken⟩
        · rw [isPersisting]
          exact ⟨vacant.logged, vacant.queued, vacant.taken⟩
      have isPhase : routePhase envelope (firstStage envelope (deliveryPolicy envelope)) =
            .routing envelope (firstStage envelope (deliveryPolicy envelope)) ∧
          ∀ message, firstStage envelope (deliveryPolicy envelope) ≠ .failed message := by
        rcases stage with ⟨isChecking, -⟩ | isPersisting
        · rw [isChecking]
          exact ⟨rfl, fun _ => PublishStage.noConfusion⟩
        · rw [isPersisting]
          exact ⟨rfl, fun _ => PublishStage.noConfusion⟩
      rw [isPhase.1]
      refine kept.set at_ (.inr ⟨free, id, rfl, fresh⟩) (others inserted) ?_ ?_
      · intro key isOwn
        obtain rfl := Option.some.inj isOwn
        rw [shown inserted]
        exact ⟨provider, _, recorded, rfl, held, isPhase.2⟩
      · exact Option.some_ne_none id

/-- A publish leaves the row of its delivery as it is. -/
theorem Recorded.published {request : Request} {provider : WebhookProvider} {row : DeliveryRow}
    {envelope : EventEnvelope} {deliveries : Deliveries} {runtime after : Runtime} {own : JsString}
    (recorded : Recorded config verifier request provider row envelope
      (viewOf deliveries runtime own))
    (received : row.status = .received) (partly : Partly (viewOf deliveries after own) envelope) :
    Recorded config verifier request provider row envelope (viewOf deliveries after own) where
  vetted := recorded.vetted
  found := recorded.found
  stored := recorded.stored
  announces := recorded.announces
  partly := partly
  settled := by
    constructor
    · exact recorded.settled.received
    · intro processed
      rw [received] at processed
      cases processed
    · exact recorded.settled.failed

theorem kept_routing (kept : Kept config verifier state) {index : Nat} {call : Call}
    (at_ : state.calls[index]? = some call) {envelope : EventEnvelope} {stage : PublishStage}
    (isPhase : call.phase = .routing envelope stage) {outcome : Outcome}
    {id envelopeId : JsString} {now : Timestamp} {after : Deliveries × Runtime × Call}
    (taken : next verifier state call outcome id envelopeId now = some after) :
    Kept config verifier
      { deliveries := after.1, runtime := after.2.1
        calls := state.calls.set index after.2.2 } := by
  have stands := kept.stands call (List.mem_of_getElem? at_)
  rw [Stands, isPhase] at stands
  obtain ⟨own, drew⟩ := Option.ne_none_iff_exists'.mp stands
  have holds := kept.owned.kept call (List.mem_of_getElem? at_) own drew
  rw [Holds, isPhase] at holds
  obtain ⟨provider, row, recorded, received, held, going⟩ := holds
  have isOwn : row.id = own := Table.key_of_find recorded.found
  have isKey : envelope.idempotencyKey = some own := isOwn ▸ recorded.announces.key
  have isJob : jobIdOf envelope = own := by simp [jobIdOf, isKey]
  rw [next, isPhase] at taken
  obtain rfl := Option.some.inj taken
  dsimp only
  rw [deliveryPolicy_webhookReceived recorded.announces.name]
  refine kept.set at_ (.inl rfl) ?_ ?_ ?_
  · intro key notOwn
    have apart : key ≠ own := fun same => notOwn (drew.trans (congrArg some same.symm))
    refine viewOf_publishNext_other outcome (isJob ▸ apart) ?_ ?_
    · simp [about, isKey, apart.symm]
    · rintro rfl
      rw [held.1, isKey]
      exact apart
  · intro key isOther
    obtain rfl : own = key := Option.some.inj (drew.symm.trans isOther)
    obtain ⟨later, partly⟩ := stageHeld_publishNext isKey outcome going held
    have remains := recorded.published received partly
    unfold routePhase
    split
    · rename_i isPublished
      rw [isPublished] at later
      exact ⟨provider, row, envelope, remains, received, later⟩
    · rename_i message _
      refine ⟨provider, row, envelope, remains, ?_⟩
      rw [received]
      exact DeliveryStatus.noConfusion
    · rename_i notPublished notFailed
      exact ⟨provider, row, remains, received, later, notFailed⟩
  · unfold routePhase
    split
    · exact stands
    · exact stands
    · exact stands

/-- What a row may become when the call that stored it marks it. -/
theorem Recorded.marked {request : Request} {provider : WebhookProvider} {row : DeliveryRow}
    {envelope : EventEnvelope} {view : View} (marked : DeliveryRow)
    (recorded : Recorded config verifier request provider row envelope view)
    (same : marked = { row with
      status := marked.status, attempts := marked.attempts, error := marked.error
      processedAt := marked.processedAt })
    (settled : Settled view marked envelope) :
    Recorded config verifier request provider marked envelope
      { view with row := some marked } where
  vetted := recorded.vetted
  found := rfl
  stored := by
    have stored := recorded.stored
    rw [Stored] at stored ⊢
    rw [same, stored]
    rfl
  announces := by
    rw [same]
    exact ⟨recorded.announces.name, recorded.announces.payload, recorded.announces.guildId,
      recorded.announces.key⟩
  partly := ⟨recorded.partly.logged, recorded.partly.queued.imp_right fun handed =>
    ⟨handed.logged, handed.queued⟩⟩
  settled := ⟨settled.received, fun processed =>
    ⟨(settled.processed processed).1, (settled.processed processed).2.logged,
      (settled.processed processed).2.queued⟩, settled.failed⟩

theorem viewOf_change_self {deliveries later : Deliveries} {own : JsString} {row : DeliveryRow}
    {change : DeliveryRow → DeliveryRow} {sameKey : ∀ row, (change row).id = row.id}
    (changed : deliveries.change own change sameKey = some later) {runtime : Runtime}
    (found : (viewOf deliveries runtime own).row = some row) :
    viewOf later runtime own = { viewOf deliveries runtime own with row := some (change row) } := by
  have isRow : deliveries.find own = some row := found
  rw [viewOf_change changed]
  simp [viewOf, isRow]

theorem viewOf_change_other {deliveries later : Deliveries} {own key : JsString}
    {change : DeliveryRow → DeliveryRow} {sameKey : ∀ row, (change row).id = row.id}
    (changed : deliveries.change own change sameKey = some later) (runtime : Runtime)
    (apart : key ≠ own) : viewOf later runtime key = viewOf deliveries runtime key := by
  rw [viewOf_change changed]
  simp [apart]

/-- A call marks its row, or fails to. -/
theorem Kept.mark (kept : Kept config verifier state) {index : Nat} {call : Call}
    (at_ : state.calls[index]? = some call) {own : JsString} (drew : call.drew = some own)
    {change : DeliveryRow → DeliveryRow} {sameKey : ∀ row, (change row).id = row.id}
    {written : Option Deliveries}
    (isWrite : ∀ later, written = some later →
      state.deliveries.change own change sameKey = some later)
    {row : DeliveryRow} (found : (state.view own).row = some row) {phase : Phase}
    (untouched : written = none → Holds config verifier { call with phase } (state.view own))
    (touched : Holds config verifier { call with phase }
      { state.view own with row := some (change row) })
    (stands : Stands config verifier { call with phase }) :
    Kept config verifier
      { deliveries := written.getD state.deliveries, runtime := state.runtime
        calls := state.calls.set index { call with phase } } := by
  cases writes : written with
  | none =>
      refine kept.set at_ (.inl rfl) (fun _ _ => rfl) ?_ stands
      intro key isKey
      obtain rfl : own = key := Option.some.inj (drew.symm.trans isKey)
      exact untouched writes
  | some later =>
      have changed := isWrite later writes
      refine kept.set at_ (.inl rfl) ?_ ?_ stands
      · intro key apart
        exact viewOf_change_other changed _ fun same => apart (drew.trans (congrArg some same.symm))
      · intro key isKey
        obtain rfl : own = key := Option.some.inj (drew.symm.trans isKey)
        rw [Option.getD_some, viewOf_change_self changed found]
        exact touched

theorem write_of_took {took : Bool} {write : Option Deliveries} {later : Deliveries}
    (written : (if took then write else none) = some later) : write = some later := by
  cases took with
  | true => exact written
  | false => cases written

theorem kept_completing (kept : Kept config verifier state) {index : Nat} {call : Call}
    (at_ : state.calls[index]? = some call) (isPhase : call.phase = .completing)
    {outcome : Outcome} {id envelopeId : JsString} {now : Timestamp}
    {after : Deliveries × Runtime × Call}
    (taken : next verifier state call outcome id envelopeId now = some after) :
    Kept config verifier
      { deliveries := after.1, runtime := after.2.1
        calls := state.calls.set index after.2.2 } := by
  have stands := kept.stands call (List.mem_of_getElem? at_)
  rw [Stands, isPhase] at stands
  obtain ⟨own, drew⟩ := Option.ne_none_iff_exists'.mp stands
  have holds := kept.owned.kept call (List.mem_of_getElem? at_) own drew
  rw [Holds, isPhase] at holds
  obtain ⟨provider, row, envelope, recorded, received, handed⟩ := holds
  have attempts := (recorded.settled.received received).1
  have marked := recorded.marked (row.processed now) rfl
    ⟨DeliveryStatus.noConfusion, fun _ => ⟨attempts, handed⟩, DeliveryStatus.noConfusion⟩
  have isOwn : call.drew.getD [] = own := by rw [drew, Option.getD_some]
  rw [next, isPhase, isOwn] at taken
  dsimp only at taken
  cases outcome with
  | done =>
      obtain ⟨later, changed, rfl⟩ := Option.map_eq_some_iff.mp taken
      have isWrite (other : Deliveries) (same : some later = some other) :
          markProcessed state.deliveries own now = some other := changed.trans same
      refine kept.mark at_ drew isWrite recorded.found ?_ ?_ stands
      · intro impossible
        cases impossible
      · exact ⟨provider, _, envelope, marked, DeliveryStatus.noConfusion⟩
  | threw took message =>
      obtain rfl := Option.some.inj taken
      refine kept.mark at_ drew (fun _ written => write_of_took written) recorded.found ?_ ?_ stands
      · refine fun _ => ⟨provider, row, envelope, recorded, ?_⟩
        rw [received]
        exact DeliveryStatus.noConfusion
      · exact ⟨provider, _, envelope, marked, DeliveryStatus.noConfusion⟩

theorem kept_failing (kept : Kept config verifier state) {index : Nat} {call : Call}
    (at_ : state.calls[index]? = some call) {error : JsString}
    (isPhase : call.phase = .failing error) {outcome : Outcome} {id envelopeId : JsString}
    {now : Timestamp} {after : Deliveries × Runtime × Call}
    (taken : next verifier state call outcome id envelopeId now = some after) :
    Kept config verifier
      { deliveries := after.1, runtime := after.2.1
        calls := state.calls.set index after.2.2 } := by
  have stands := kept.stands call (List.mem_of_getElem? at_)
  rw [Stands, isPhase] at stands
  obtain ⟨own, drew⟩ := Option.ne_none_iff_exists'.mp stands
  have holds := kept.owned.kept call (List.mem_of_getElem? at_) own drew
  rw [Holds, isPhase] at holds
  obtain ⟨provider, row, envelope, recorded, notFailed⟩ := holds
  have attempts : row.attempts = 0 := by
    cases isStatus : row.status with
    | received => exact (recorded.settled.received isStatus).1
    | processed => exact (recorded.settled.processed isStatus).1
    | failed => exact absurd isStatus notFailed
  have marked := recorded.marked (row.failed error) rfl
    ⟨DeliveryStatus.noConfusion, DeliveryStatus.noConfusion,
      fun _ => ⟨congrArg Nat.succ attempts, Option.some_ne_none error⟩⟩
  have isOwn : call.drew.getD [] = own := by rw [drew, Option.getD_some]
  rw [next, isPhase, isOwn] at taken
  dsimp only at taken
  cases outcome with
  | done =>
      obtain ⟨later, changed, rfl⟩ := Option.map_eq_some_iff.mp taken
      have isWrite (other : Deliveries) (same : some later = some other) :
          markFailed state.deliveries own error = some other := changed.trans same
      refine kept.mark at_ drew isWrite recorded.found ?_ ?_ stands
      · intro impossible
        cases impossible
      · exact ⟨provider, _, envelope, marked, DeliveryStatus.noConfusion⟩
  | threw took message =>
      obtain rfl := Option.some.inj taken
      refine kept.mark at_ drew (fun _ written => write_of_took written) recorded.found ?_ ?_
        trivial
      · exact fun _ => .inr ⟨provider, row, envelope, recorded⟩
      · exact .inr ⟨provider, _, envelope, marked⟩

/-! Runs. -/

theorem kept_start (registries : Events.Registries) :
    Kept config verifier (.start registries) where
  owned := owned_nil fun _ => ⟨⟨rfl, rfl, rfl⟩, rfl, rfl⟩
  stands := by simp [State.start]

theorem kept_step (kept : Kept config verifier state) {action : Action} {later : State}
    (taken : step config verifier state action = some later) : Kept config verifier later := by
  cases action with
  | receive request =>
      obtain rfl := Option.some.inj taken
      refine ⟨kept.owned.append rfl, fun call member => ?_⟩
      rcases List.mem_append.mp member with earlier | newest
      · exact kept.stands call earlier
      · rw [List.mem_singleton.mp newest]
        cases opened : opening config request with
        | error refusal => trivial
        | ok provider => exact ⟨opened, rfl⟩
  | advance index outcome id envelopeId now =>
      rw [step] at taken
      split at taken
      · rename_i call at_
        obtain ⟨after, isAfter, rfl⟩ := Option.map_eq_some_iff.mp taken
        cases isPhase : call.phase with
        | verifying provider => exact kept_verifying kept at_ isPhase isAfter
        | reporting envelope stage => exact kept_reporting kept at_ isPhase isAfter
        | creating provider => exact kept_creating kept at_ isPhase isAfter
        | routing envelope stage => exact kept_routing kept at_ isPhase isAfter
        | completing => exact kept_completing kept at_ isPhase isAfter
        | failing error => exact kept_failing kept at_ isPhase isAfter
        | accepted | refused refusal | threw =>
            rw [next, isPhase] at isAfter
            cases isAfter
      · cases taken

theorem kept_run {registries : Events.Registries} {actions : List Action}
    (ran : run (step config verifier) (.start registries) actions = some state) :
    Kept config verifier state :=
  invariant_run _ (fun _ _ _ kept taken => kept_step kept taken) ran (kept_start registries)

theorem Holds.cases {call : Call} {view : View} (holds : Holds config verifier call view) :
    Silent view ∨ ∃ provider row envelope,
      Recorded config verifier call.request provider row envelope view := by
  unfold Holds at holds
  split at holds
  · cases holds
  · cases holds
  · exact .inl holds.1
  · obtain ⟨provider, row, recorded, _⟩ := holds
    exact .inr ⟨provider, row, _, recorded⟩
  · obtain ⟨provider, row, envelope, recorded, _⟩ := holds
    exact .inr ⟨provider, row, envelope, recorded⟩
  · obtain ⟨provider, row, envelope, recorded, _⟩ := holds
    exact .inr ⟨provider, row, envelope, recorded⟩
  · obtain ⟨provider, row, envelope, recorded, _⟩ := holds
    exact .inr ⟨provider, row, envelope, recorded⟩
  · exact .inl holds
  · exact holds

/-- Every row was stored for a request that passed all checks and says what that request says; the
bus has logged and queued its event once at most, and exactly once if it is processed. No event is
about a row that is not there, and no request is accepted whose row has not been marked. -/
theorem deliveries_accounted {registries : Events.Registries} {actions : List Action}
    (ran : run (step config verifier) (.start registries) actions = some state) :
    (∀ id row, state.deliveries.find id = some row → ∃ call ∈ state.calls, ∃ provider envelope,
      call.drew = some id ∧
        Recorded config verifier call.request provider row envelope (state.view id)) ∧
    (∀ id, state.deliveries.find id = none →
      (state.view id).logged = [] ∧ (state.view id).queued = []) ∧
    ∀ call ∈ state.calls, call.phase = .accepted → ∃ id row,
      call.drew = some id ∧ state.deliveries.find id = some row ∧ row.status ≠ .received := by
  have kept := kept_run ran
  have known (id : JsString) : Silent (state.view id) ∨
      ∃ call ∈ state.calls, ∃ provider row envelope, call.drew = some id ∧
        Recorded config verifier call.request provider row envelope (state.view id) := by
    by_cases drawn : ∃ call ∈ state.calls, call.drew = some id
    · obtain ⟨call, member, drew⟩ := drawn
      refine (kept.owned.kept call member id drew).cases.imp_right ?_
      rintro ⟨provider, row, envelope, recorded⟩
      exact ⟨call, member, provider, row, envelope, drew, recorded⟩
    · refine .inl (kept.owned.others id fun call member drew => ?_).toSilent
      exact drawn ⟨call, member, drew⟩
  refine ⟨?_, ?_, ?_⟩
  · intro id row found
    rcases known id with silent | ⟨call, member, provider, other, envelope, drew, recorded⟩
    · have absent : state.deliveries.find id = none := silent.row
      rw [found] at absent
      cases absent
    · obtain rfl : row = other := Option.some.inj (found.symm.trans recorded.found)
      exact ⟨call, member, provider, envelope, drew, recorded⟩
  · intro id absent
    rcases known id with silent | ⟨call, member, provider, row, envelope, drew, recorded⟩
    · exact ⟨silent.logged, silent.queued⟩
    · have found : state.deliveries.find id = some row := recorded.found
      rw [absent] at found
      cases found
  · intro call member isAccepted
    have stands := kept.stands call member
    rw [Stands, isAccepted] at stands
    obtain ⟨own, drew⟩ := Option.ne_none_iff_exists'.mp stands
    have holds := kept.owned.kept call member own drew
    rw [Holds, isAccepted] at holds
    obtain ⟨provider, row, envelope, recorded, notReceived⟩ := holds
    exact ⟨own, row, drew, recorded.found, notReceived⟩

def heartbeat : Request :=
  { provider := js "fivem", rawBody := some [123, 125]
    body := some (.obj [(js "type", .str (js "heartbeat")), (js "guild_id", .str (js "g"))])
    headers := [(js "x-fivem-signature", .single (List.replicate 64 (unit 48)))]
    ip := none, requestId := js "r", context := { correlationId := js "c", causationId := none } }

def fivemConfig : WebhooksConfig := { enabledProviders := [.fivem], maxBodyBytes := 1048576 }

def sampleVerifier : Verifier :=
  { secret := fun _ => some (js "s")
    hmac := fun _ _ => Webhooks.zeroDigest
    ed25519 := fun _ _ _ => none }

/-- The row is written, the event is queued, and the mark of the row is lost. -/
def lostMark : List Action :=
  let advance (outcome : Outcome) : Action := .advance 0 outcome (js "d") (js "e") 5
  [.receive heartbeat, advance .done, advance .done, advance .done, advance .done, advance .done,
    advance .done, advance .done, advance (.threw false (js "timeout")), advance .done]

def lostMarkState : State :=
  (run (step fivemConfig sampleVerifier) (.start .empty) lostMark).get (by decide +kernel)

theorem deliveries_accounted_lostMark : ∃ call ∈ lostMarkState.calls, ∃ provider envelope,
    call.drew = some (js "d") ∧
      Recorded fivemConfig sampleVerifier call.request provider
        { newRow .fivem heartbeat (js "d") 5 with
          status := .failed, attempts := 1, error := some (js "timeout") }
        envelope (lostMarkState.view (js "d")) := by
  have ran : run (step fivemConfig sampleVerifier) (.start .empty) lostMark = some lostMarkState :=
    (Option.some_get _).symm
  exact (deliveries_accounted ran).1 (js "d") _ (by decide +kernel)

end WebhookIngress
