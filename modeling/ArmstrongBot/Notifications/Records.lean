import ArmstrongBot.Library.Calendar
import ArmstrongBot.Library.JsText
import ArmstrongBot.Library.Table

/-! `NotificationRepository`: notifications and the rows of their deliveries. -/

namespace Notifications

open JsText
open Calendar (Timestamp)

inductive NotificationChannel
  | discordDm
  | discordChannel
  | webhook
  | email
  | push
  deriving DecidableEq

def NotificationChannel.text : NotificationChannel → JsString
  | .discordDm => js "DISCORD_DM"
  | .discordChannel => js "DISCORD_CHANNEL"
  | .webhook => js "WEBHOOK"
  | .email => js "EMAIL"
  | .push => js "PUSH"

inductive NotificationCategory
  | system
  | moderation
  | tickets
  | integrations
  | digest
  | marketing
  deriving DecidableEq

inductive NotificationPriority
  | low
  | normal
  | high
  | critical
  deriving DecidableEq

inductive DeliveryStatus
  | pending
  | sent
  | failed
  | dead
  | cancelled
  deriving DecidableEq

def DeliveryStatus.isTerminal : DeliveryStatus → Bool
  | .sent | .dead | .cancelled => true
  | .pending | .failed => false

structure DeliveryRecord where
  id : JsString
  notificationId : JsString
  channel : NotificationChannel
  status : DeliveryStatus
  recipientUserId : Option JsString
  recipientRef : Option JsString
  providerMessageId : Option JsString
  attempts : Nat
  lastError : Option JsString
  scheduledFor : Option Timestamp
  deliveredAt : Option Timestamp
  deriving DecidableEq

structure NotificationRecord where
  id : JsString
  guildId : Option JsString
  category : NotificationCategory
  priority : NotificationPriority
  templateKey : JsString
  dedupeKey : Option JsString
  createdAt : Timestamp
  deletedAt : Option Timestamp
  deriving DecidableEq

structure NotificationRecipient where
  userId : Option JsString
  channelId : Option JsString
  email : Option JsString
  pushEndpoint : Option JsString
  webhookUrl : Option JsString
  deriving DecidableEq

def NotificationRecipient.nobody : NotificationRecipient :=
  { userId := none, channelId := none, email := none, pushEndpoint := none, webhookUrl := none }

structure DeliveryJobData where
  deliveryId : JsString
  notificationId : JsString
  deriving DecidableEq

inductive NotificationEvent
  | created (notificationId : JsString) (guildId : Option JsString)
      (category : NotificationCategory) (channels : List NotificationChannel)
  | delivered (notificationId deliveryId : JsString) (channel : NotificationChannel)
      (providerMessageId : Option JsString) (latencyMs : Nat) (guildId : Option JsString)
  | failed (notificationId deliveryId : JsString) (channel : NotificationChannel) (attempts : Nat)
      (movedToDlq : Bool) (error : JsString) (guildId : Option JsString)
  deriving DecidableEq

abbrev DeliveryTable := Table DeliveryRecord.id

abbrev NotificationTable := Table NotificationRecord.id

def findById (notifications : NotificationTable) (id : JsString) : Option NotificationRecord :=
  (notifications.find id).filter fun row => row.deletedAt = none

def findDelivery (deliveries : DeliveryTable) (id : JsString) : Option DeliveryRecord :=
  deliveries.find id

structure MarkResultInput where
  status : DeliveryStatus
  providerMessageId : Option JsString
  error : Option JsString
  deliveredAt : Option Timestamp
  attempts : Nat
  deriving DecidableEq

/-- What is undefined is left as it is. -/
def MarkResultInput.apply (input : MarkResultInput) (row : DeliveryRecord) : DeliveryRecord :=
  { row with
    status := input.status
    providerMessageId := input.providerMessageId.or row.providerMessageId
    lastError := input.error
    deliveredAt := input.deliveredAt
    attempts := input.attempts }

theorem MarkResultInput.apply_id (input : MarkResultInput) (row : DeliveryRecord) :
    (input.apply row).id = row.id := rfl

def markResult (deliveries : DeliveryTable) (deliveryId : JsString) (input : MarkResultInput) :
    Option DeliveryTable :=
  deliveries.change deliveryId input.apply input.apply_id

def DeliveryRecord.attempted (attempts : Nat) (error : Option JsString) (row : DeliveryRecord) :
    DeliveryRecord :=
  { row with attempts, lastError := error, status := .failed }

theorem DeliveryRecord.attempted_id (attempts : Nat) (error : Option JsString)
    (row : DeliveryRecord) : (row.attempted attempts error).id = row.id := rfl

def markAttempt (deliveries : DeliveryTable) (deliveryId : JsString) (attempts : Nat)
    (error : Option JsString) : Option DeliveryTable :=
  deliveries.change deliveryId (DeliveryRecord.attempted attempts error)
    (DeliveryRecord.attempted_id attempts error)

def DeliveryRecord.isPendingOf (notificationId : JsString) (row : DeliveryRecord) : Bool :=
  row.notificationId = notificationId ∧ row.status = .pending

/-- The first query of `cancelPending`. -/
def findPending (deliveries : DeliveryTable) (notificationId : JsString) : List JsString :=
  (deliveries.rows.filter (DeliveryRecord.isPendingOf notificationId)).map DeliveryRecord.id

def DeliveryRecord.cancel (row : DeliveryRecord) : DeliveryRecord :=
  { row with status := .cancelled }

theorem DeliveryRecord.cancel_id (row : DeliveryRecord) : row.cancel.id = row.id := rfl

/-- The second query of `cancelPending`, which selects anew. -/
def updatePending (deliveries : DeliveryTable) (notificationId : JsString) : DeliveryTable :=
  deliveries.update (DeliveryRecord.isPendingOf notificationId) DeliveryRecord.cancel
    DeliveryRecord.cancel_id

/-! What each of them leaves of a row. -/

variable {deliveries next : DeliveryTable}

theorem find_markResult {deliveryId : JsString} {input : MarkResultInput}
    (marked : markResult deliveries deliveryId input = some next) (id : JsString) :
    next.find id = (deliveries.find id).map fun row =>
      if id = deliveryId then input.apply row else row := (Table.find_change marked).2 id

theorem find_markAttempt {deliveryId : JsString} {attempts : Nat} {error : Option JsString}
    (marked : markAttempt deliveries deliveryId attempts error = some next) (id : JsString) :
    next.find id = (deliveries.find id).map fun row =>
      if id = deliveryId then row.attempted attempts error else row :=
  (Table.find_change marked).2 id

theorem find_updatePending (deliveries : DeliveryTable) (notificationId id : JsString) :
    (updatePending deliveries notificationId).find id = (deliveries.find id).map fun row =>
      if row.isPendingOf notificationId then row.cancel else row := Table.find_update ..

end Notifications
