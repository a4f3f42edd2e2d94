import ArmstrongBot.Library.Json
import ArmstrongBot.Library.Calendar

/-! Envelopes, publish options and the delivery policies of `core/events`. -/

namespace Events

open JsText JsJson
open Calendar (Timestamp toISOString)

inductive DeliveryPolicy
  | sync
  | async
  | both
  deriving DecidableEq

def DeliveryPolicy.usesSync : DeliveryPolicy → Bool
  | .sync | .both => true
  | .async => false

def DeliveryPolicy.usesAsync : DeliveryPolicy → Bool
  | .async | .both => true
  | .sync => false

structure EventPolicy where
  delivery : DeliveryPolicy
  idempotent : Bool
  fireAndForget : Bool
  deriving DecidableEq

def defaultPolicy : EventPolicy := { delivery := .async, idempotent := false, fireAndForget := false }

def policyTable : List (JsString × EventPolicy) :=
  [(js "discord.member.joined", ⟨.both, true, false⟩),
    (js "discord.message.deleted", ⟨.async, true, false⟩),
    (js "moderation.ban.executed", ⟨.both, true, false⟩),
    (js "moderation.warn.issued", ⟨.both, true, false⟩),
    (js "tickets.ticket.opened", ⟨.async, true, false⟩),
    (js "tickets.ticket.closed", ⟨.async, true, false⟩),
    (js "events.handler.failed", ⟨.sync, false, true⟩),
    (js "events.deadletter.created", ⟨.sync, false, true⟩),
    (js "events.replay.completed", ⟨.sync, false, true⟩),
    (js "security.rate_limit.exceeded", ⟨.async, false, true⟩),
    (js "security.auth.failed", ⟨.async, false, true⟩),
    (js "security.permission.denied", ⟨.async, false, true⟩),
    (js "security.secret.accessed", ⟨.async, false, true⟩),
    (js "security.encryption.key_rotated", ⟨.both, false, true⟩),
    (js "api.request.completed", ⟨.async, false, true⟩),
    (js "api.auth.failed", ⟨.async, false, true⟩),
    (js "api.key.used", ⟨.async, false, true⟩),
    (js "api.webhook.received", ⟨.both, true, false⟩),
    (js "dashboard.module.toggled", ⟨.async, true, false⟩),
    (js "dashboard.config.updated", ⟨.async, true, false⟩),
    (js "dashboard.apikey.created", ⟨.async, true, false⟩),
    (js "dashboard.backup.requested", ⟨.async, true, false⟩)]

def getEventPolicy (name : JsString) : EventPolicy := (policyTable.lookup name).getD defaultPolicy

inductive ActorType
  | user
  | system
  | discord
  | job
  | api
  deriving DecidableEq

structure EventActor where
  type : ActorType
  id : JsString
  username : Option JsString
  deriving DecidableEq

structure EventEnvelope where
  id : JsString
  name : JsString
  payload : Json
  guildId : Option JsString
  actor : EventActor
  occurredAt : JsString
  correlationId : JsString
  causationId : Option JsString
  version : Int
  idempotencyKey : Option JsString
  metadata : Option Json
  deriving DecidableEq

structure PublishOptions where
  guildId : Option JsString
  actor : Option EventActor
  correlationId : Option JsString
  causationId : Option JsString
  idempotencyKey : Option JsString
  version : Option Int
  metadata : Option Json
  deliveryOverride : Option DeliveryPolicy

def PublishOptions.empty : PublishOptions :=
  { guildId := none, actor := none, correlationId := none, causationId := none
    idempotencyKey := none, version := none, metadata := none, deliveryOverride := none }

structure CorrelationContext where
  correlationId : JsString
  causationId : Option JsString

/-- The envelope that `publish` builds, with the random id and the time of the call. -/
def buildEnvelope (id : JsString) (now : Timestamp) (context : CorrelationContext) (name : JsString)
    (payload : Json) (options : PublishOptions) : EventEnvelope :=
  { id, name, payload, guildId := options.guildId
    actor := options.actor.getD { type := .system, id := js "core", username := none }
    occurredAt := toISOString now
    correlationId := options.correlationId.getD context.correlationId
    causationId := options.causationId.or context.causationId
    version := options.version.getD 1
    idempotencyKey := options.idempotencyKey
    metadata := options.metadata }

def deliveryOf (name : JsString) (options : PublishOptions) : DeliveryPolicy :=
  options.deliveryOverride.getD (getEventPolicy name).delivery

/-- The key that the idempotency guard looks at: none unless the policy is idempotent, and an
empty key is no key. -/
def guardKey (envelope : EventEnvelope) : Option JsString :=
  if (getEventPolicy envelope.name).idempotent then
    envelope.idempotencyKey.filter fun key => key != []
  else none

def jobIdOf (envelope : EventEnvelope) : JsString := envelope.idempotencyKey.getD envelope.id

end Events
