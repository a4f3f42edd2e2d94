import ArmstrongBot.Audit.CanonicalJson
import ArmstrongBot.Events.Envelope
import ArmstrongBot.Webhooks.Ingress

/-! `OutboundDispatchService`: the fan-out of an event over the subscriptions, from await to await,
and the worker of the queue `webhooks.outbound`. -/

namespace Webhooks

open JsText JsJson
open Calendar (Timestamp)
open Events (EventEnvelope)

structure Subscription where
  id : JsString
  guildId : JsString
  eventType : JsString
  targetUrl : JsString
  signingSecret : JsString
  enabled : Bool
  filter : Option Fields
  deletedAt : Option Timestamp
  deriving DecidableEq

structure OutboundConfig where
  enabled : Bool
  maxAttempts : Nat
  allowedOutboundEvents : List JsString

/-- The decryption of signing secrets, and HMAC-SHA256 in hexadecimal of a text under a secret. -/
structure OutboundServices where
  decrypt : JsString → JsString
  hmacHex : JsString → JsString → JsString

/-- The table `webhook_subscriptions` under its primary key. -/
@[ext] structure SubscriptionTable where
  rows : List Subscription
  distinct : (rows.map Subscription.id).Nodup

def SubscriptionTable.findById (table : SubscriptionTable) (id : JsString) : Option Subscription :=
  table.rows.find? fun row => row.id = id ∧ row.deletedAt = none

def SubscriptionTable.findEnabledForEvent (table : SubscriptionTable) (eventType : JsString) :
    List Subscription :=
  table.rows.filter fun row => row.eventType = eventType ∧ row.enabled ∧ row.deletedAt = none

structure CreateSubscription where
  guildId : JsString
  eventType : JsString
  targetUrl : JsString
  signingSecret : JsString
  filter : Option Fields

def CreateSubscription.row (input : CreateSubscription) (id : JsString) : Subscription :=
  { id, guildId := input.guildId, eventType := input.eventType, targetUrl := input.targetUrl
    signingSecret := input.signingSecret, enabled := true, filter := input.filter
    deletedAt := none }

def SubscriptionTable.create (table : SubscriptionTable) (id : JsString)
    (input : CreateSubscription) : Option SubscriptionTable :=
  if fresh : id ∉ table.rows.map Subscription.id then
    some
      { rows := table.rows ++ [input.row id]
        distinct := by
          rw [List.map_append, List.map_singleton]
          refine List.nodup_append.mpr ⟨table.distinct, List.nodup_singleton _, ?_⟩
          rintro known member other isNew rfl
          rw [List.mem_singleton.mp isNew] at member
          exact fresh member }
  else none

def SubscriptionTable.softDelete (table : SubscriptionTable) (id : JsString) (now : Timestamp) :
    SubscriptionTable :=
  { rows := table.rows.map fun row =>
      if row.id = id ∧ row.deletedAt = none then { row with deletedAt := some now } else row
    distinct := by
      have sameIds : (Subscription.id ∘ fun row => if row.id = id ∧ row.deletedAt = none then
          { row with deletedAt := some now } else row) = Subscription.id := by
        funext row
        simp only [Function.comp_apply]
        split <;> rfl
      rw [List.map_map, sameIds]
      exact table.distinct }

/-! The filter. -/

/-- On JSON values the reduce over the sorted keys is the loop of `normalise`. -/
def canonicalize (value : Json) : Json := Audit.normalise value

/-- `payload[key]`; an object without an own `__proto__` answers with its prototype, which has no
own keys, and the functions that it inherits have no text. -/
def property (payload : Fields) (key : JsString) : Option Json :=
  (payload.lookup key).or (if key = protoKey then some (.obj []) else none)

/-- Equal values have one text, so that the comparison with `===` adds nothing. -/
def valueEquals (actual : Option Json) (expected : Json) : Bool :=
  (actual.map fun value => stringify (canonicalize value)) = some (stringify (canonicalize expected))

def matchesFilter (filter : Option Fields) (payload : Fields) : Bool :=
  match filter with
  | none => true
  | some fields => fields.all fun field => valueEquals (property payload field.1) field.2

/-- The payloads of `GhostEventMap` are objects. -/
def toPayload : Json → Fields
  | .obj fields => fields
  | _ => []

/-! Deliveries. -/

structure OutboundDelivery where
  id : JsString
  subscriptionId : JsString
  guildId : JsString
  eventType : JsString
  status : DeliveryStatus
  attempts : Nat
  lastStatusCode : Option Nat
  lastError : Option JsString
  payload : Fields
  deliveredAt : Option Timestamp
  deriving DecidableEq

def createOutbound (id : JsString) (subscription : Subscription) (event : EventEnvelope) :
    OutboundDelivery :=
  { id, subscriptionId := subscription.id, guildId := subscription.guildId, eventType := event.name
    status := .processing, attempts := 0, lastStatusCode := none, lastError := none
    payload := toPayload event.payload, deliveredAt := none }

structure OutboundUpdate where
  status : DeliveryStatus
  attempts : Nat
  lastStatusCode : Option Nat
  lastError : Option JsString
  deliveredAt : Option Timestamp

def OutboundUpdate.apply (update : OutboundUpdate) (delivery : OutboundDelivery) :
    OutboundDelivery :=
  { delivery with
    status := update.status
    attempts := update.attempts
    lastStatusCode := update.lastStatusCode.or delivery.lastStatusCode
    lastError := update.lastError.or delivery.lastError
    deliveredAt := update.deliveredAt.or delivery.deliveredAt }

structure Post where
  targetUrl : JsString
  body : JsString
  headers : Headers
  deriving DecidableEq

def buildHeaders (services : OutboundServices) (subscription : Subscription)
    (deliveryId eventType body : JsString) (now : Timestamp) : Headers :=
  let timestamp := intText (now / 1000)
  let signature :=
    services.hmacHex (services.decrypt subscription.signingSecret) (timestamp ++ js "." ++ body)
  [(js "content-type", js "application/json"),
    (js "x-webhook-signature-256", js "sha256=" ++ signature),
    (js "x-webhook-event", eventType), (js "x-webhook-timestamp", timestamp),
    (js "x-webhook-delivery-id", deliveryId)]

inductive Response
  | status (code : Nat)
  | error (reason : JsString)

/-- What a run of `deliver` depends on: the time, what comes back of its POST, and whether the
database answers its lookups and takes its update. -/
structure Attempt where
  now : Timestamp
  response : Response
  reads : Bool
  recorded : Bool

/-- What a run of `deliver` does; one that does not return is tried again. -/
structure Delivering where
  post : Option Post
  update : Option OutboundUpdate
  returned : Bool

def isRetryable (statusCode : Nat) : Bool := statusCode = 429 || 500 ≤ statusCode

/-- `deliver` for a delivery whose subscription lookup gives `found`. -/
def deliver (services : OutboundServices) (delivery : OutboundDelivery)
    (found : Option Subscription) (input : Attempt) : Delivering :=
  if input.reads then
    if delivery.status = .processed then { post := none, update := none, returned := true }
    else
      let attempts := delivery.attempts + 1
      match found with
      | none =>
          { post := none, returned := input.recorded
            update := some { status := .failed, attempts, lastStatusCode := none
                             lastError := some (js "subscription missing"), deliveredAt := none } }
      | some subscription =>
          let body := stringify (.obj delivery.payload)
          let headers :=
            buildHeaders services subscription delivery.id delivery.eventType body input.now
          let post := some { targetUrl := subscription.targetUrl, body, headers }
          match input.response with
          | .error reason =>
              { post, returned := false
                update := some { status := .failed, attempts, lastStatusCode := none
                                 lastError := some reason, deliveredAt := none } }
          | .status code =>
              if 200 ≤ code ∧ code < 300 then
                { post, returned := input.recorded
                  update := some { status := .processed, attempts, lastStatusCode := some code
                                   lastError := none, deliveredAt := some input.now } }
              else
                { post, returned := input.recorded && !isRetryable code
                  update := some
                    { status := .failed, attempts, lastStatusCode := some code
                      lastError := some (js "HTTP " ++ natText code), deliveredAt := none } }
  else { post := none, update := none, returned := false }

/-! The fan-out and the queue. -/

/-- A fan-out of an event; the subscriptions that remain are those that match it. -/
structure Dispatch where
  key : Nat
  event : EventEnvelope
  remaining : List Subscription
  deriving DecidableEq

/-- A delivery with the event it was made for, which no column holds, and the attempts made of its
job, while there is one that is not finished. -/
structure Outgoing where
  event : EventEnvelope
  delivery : OutboundDelivery
  job : Option Nat
  deriving DecidableEq

/-- The tables and the queue, with two logs: the subscriptions that an event was enqueued for, and
those that it was sent to. -/
structure OutboundState where
  subscriptions : SubscriptionTable
  dispatches : List Dispatch
  outgoing : List Outgoing
  enqueued : List (EventEnvelope × Subscription)
  sent : List (EventEnvelope × Subscription × Post)

def OutboundState.start (subscriptions : SubscriptionTable) : OutboundState :=
  { subscriptions, dispatches := [], outgoing := [], enqueued := [], sent := [] }

/-- The id that the database makes up for a delivery, and which of the two calls of the fan-out for
a subscription succeed. -/
structure FanOut where
  id : JsString
  creates : Bool
  enqueues : Bool

section

variable (services : OutboundServices) (config : OutboundConfig)

def createSubscription (state : OutboundState) (id : JsString) (input : CreateSubscription) :
    Option OutboundState :=
  if input.eventType ∈ config.allowedOutboundEvents then
    (state.subscriptions.create id input).map fun subscriptions => { state with subscriptions }
  else some state

def removeSubscription (state : OutboundState) (guildId id : JsString) (now : Timestamp) :
    OutboundState :=
  match state.subscriptions.findById id with
  | some row =>
      if row.guildId = guildId then
        { state with subscriptions := state.subscriptions.softDelete id now }
      else state
  | none => state

def matching (table : SubscriptionTable) (event : EventEnvelope) : List Subscription :=
  if config.enabled ∧ event.name ∈ config.allowedOutboundEvents then
    (table.findEnabledForEvent event.name).filter fun subscription =>
      matchesFilter subscription.filter (toPayload event.payload)
  else []

/-- `dispatchForEvent` up to its first call of the fan-out. -/
def dispatchForEvent (state : OutboundState) (key : Nat) (event : EventEnvelope) :
    Option OutboundState :=
  if key ∈ state.dispatches.map Dispatch.key then none
  else
    let remaining := matching config state.subscriptions event
    some { state with dispatches := state.dispatches ++ [{ key, event, remaining }] }

def leave (dispatches : List Dispatch) (key : Nat) (remaining : List Subscription) :
    List Dispatch :=
  dispatches.map fun dispatch =>
    if dispatch.key = key then { dispatch with remaining } else dispatch

/-- The turn of the next subscription; a call that fails ends the fan-out. -/
def fanOut (state : OutboundState) (key : Nat) (input : FanOut) : Option OutboundState :=
  match state.dispatches.find? fun dispatch => dispatch.key = key with
  | some { event, remaining := subscription :: rest, .. } =>
      if input.creates then
        if input.id ∈ state.outgoing.map fun outgoing => outgoing.delivery.id then none
        else
          let delivery := createOutbound input.id subscription event
          let job := if input.enqueues then some 0 else none
          some { state with
            dispatches := leave state.dispatches key (if input.enqueues then rest else [])
            outgoing := state.outgoing ++ [{ event, delivery, job }]
            enqueued := state.enqueued ++ if input.enqueues then [(event, subscription)] else [] }
      else some { state with dispatches := leave state.dispatches key [] }
  | _ => none

/-- The job after a run of `deliver`; after the last attempt it stays failed. -/
def nextJob (attemptsMade : Nat) (returned : Bool) : Option Nat :=
  if returned ∨ config.maxAttempts ≤ attemptsMade + 1 then none else some (attemptsMade + 1)

/-- `onExhausted`, which the worker calls for a job that has failed for the last time. -/
def onExhausted (delivery : OutboundDelivery) : OutboundDelivery :=
  if delivery.status = .processed then delivery
  else
    { delivery with
      status := .deadLettered
      lastError := delivery.lastError.or (some (js "retries exhausted")) }

def settle (outgoing : List Outgoing) (id : JsString) (change : Outgoing → Outgoing) :
    List Outgoing :=
  outgoing.map fun other => if other.delivery.id = id then change other else other

/-- The outcome of a run on the row and on the job; `exhausts` tells whether `onExhausted` gets
through where the job has failed for the last time. -/
def Outgoing.after (outgoing : Outgoing) (attemptsMade : Nat) (delivering : Delivering)
    (recorded exhausts : Bool) : Outgoing :=
  let updates := delivering.update.filter fun _ => recorded
  let delivery := updates.elim outgoing.delivery fun update => update.apply outgoing.delivery
  let job := nextJob config attemptsMade delivering.returned
  { outgoing with
    delivery := if !delivering.returned && job.isNone && exhausts then onExhausted delivery
      else delivery
    job }

def runJob (state : OutboundState) (id : JsString) (input : Attempt) (exhausts : Bool) :
    Option OutboundState :=
  match state.outgoing.find? fun outgoing => outgoing.delivery.id = id with
  | some { event, delivery, job := some attemptsMade } =>
      let found := state.subscriptions.findById delivery.subscriptionId
      let delivering := deliver services delivery found input
      some { state with
        outgoing := settle state.outgoing id fun outgoing =>
          outgoing.after config attemptsMade delivering input.recorded exhausts
        sent := state.sent ++ (found.bind fun subscription =>
          delivering.post.map fun post => (event, subscription, post)).toList }
  | _ => none

inductive OutboundAction
  | create (id : JsString) (input : CreateSubscription)
  | remove (guildId id : JsString) (now : Timestamp)
  | dispatch (key : Nat) (event : EventEnvelope)
  | fanOut (key : Nat) (input : FanOut)
  | runJob (id : JsString) (input : Attempt) (exhausts : Bool)

def outboundStep (state : OutboundState) : OutboundAction → Option OutboundState
  | .create id input => createSubscription config state id input
  | .remove guildId id now => some (removeSubscription state guildId id now)
  | .dispatch key event => dispatchForEvent config state key event
  | .fanOut key input => Webhooks.fanOut state key input
  | .runJob id input exhausts => Webhooks.runJob services config state id input exhausts

end

end Webhooks
