import ArmstrongBot.Library.StepMachine
import ArmstrongBot.Notifications.Records

/-! `DeliveryProcessor` and `cancelPending`, from await to await. -/

namespace Notifications

open JsText StepMachine
open Calendar (Timestamp)

structure ProviderSendResult where
  ok : Bool
  providerMessageId : Option JsString
  retryable : Bool
  error : Option JsString
  deriving DecidableEq

def recipientFromDelivery (delivery : DeliveryRecord) : NotificationRecipient :=
  match delivery.channel with
  | .discordDm => { NotificationRecipient.nobody with
      userId := delivery.recipientUserId.or delivery.recipientRef }
  | .discordChannel => { NotificationRecipient.nobody with channelId := delivery.recipientRef }
  | .email => { NotificationRecipient.nobody with
      userId := delivery.recipientUserId, email := delivery.recipientRef }
  | .push => { NotificationRecipient.nobody with
      userId := delivery.recipientUserId, pushEndpoint := delivery.recipientRef }
  | .webhook => { NotificationRecipient.nobody with webhookUrl := delivery.recipientRef }

inductive Outcome
  | returned
  | threw (message : JsString)
  deriving DecidableEq

/-- A call at the `await` it has reached: `deliver` and `markDead`, `onExhausted`, and
`cancelPending`. -/
inductive Call
  | finding (data : DeliveryJobData) (attemptsMade : Nat)
  | loading (delivery : DeliveryRecord) (attemptsMade : Nat)
  | rendering (delivery : DeliveryRecord) (notification : NotificationRecord) (attemptNo : Nat)
  | sending (delivery : DeliveryRecord) (notification : NotificationRecord) (attemptNo : Nat)
      (recipient : NotificationRecipient)
  | recording (delivery : DeliveryRecord) (notification : NotificationRecord) (attemptNo : Nat)
      (providerMessageId : Option JsString) (deliveredAt : Timestamp) (latencyMs : Nat)
  | attempting (delivery : DeliveryRecord) (notification : NotificationRecord) (attemptNo : Nat)
      (error : Option JsString)
  | burying (delivery : DeliveryRecord) (error : JsString) (attempts : Nat)
  | reporting (delivery : DeliveryRecord) (error : JsString) (attempts : Nat)
  | emitting (event : NotificationEvent) (outcome : Outcome)
  | examining (data : DeliveryJobData) (error : JsString)
  | listing (notificationId : JsString)
  | cancelling (notificationId : JsString) (pending : List JsString)
  | removing (notificationId : JsString) (pending : List JsString)
  | ended (outcome : Outcome)
  deriving DecidableEq

/-- What the awaited service answers: that it failed, or what the call reads of its answer. -/
structure Input where
  failure : Option JsString
  result : ProviderSendResult
  now : Timestamp
  latencyMs : Nat
  deliveryId : JsString
  locked : Bool
  deriving DecidableEq

structure Store where
  notifications : NotificationTable
  deliveries : DeliveryTable
  /-- The deliveries with a job in the queue. -/
  jobs : List JsString

def Store.withDeliveries (store : Store) (deliveries : DeliveryTable) : Store :=
  { store with deliveries }

/-- The call after the provider's answer; one that throws counts as a transient failure. -/
def settle (delivery : DeliveryRecord) (notification : NotificationRecord) (attemptNo : Nat)
    (result : ProviderSendResult) (input : Input) : Call :=
  if result.ok then
    .recording delivery notification attemptNo result.providerMessageId input.now input.latencyMs
  else if !result.retryable then
    .burying delivery (result.error.getD (js "permanent failure")) attemptNo
  else .attempting delivery notification attemptNo result.error

/-- What a call does when its `await` is answered; the update of a row that is not there is not. -/
def proceed (providers : List NotificationChannel) (store : Store) (input : Input) :
    Call → Option (Store × Call)
  | .finding data attemptsMade =>
      some (store, match findDelivery store.deliveries data.deliveryId with
        | none => .ended .returned
        | some delivery =>
            if delivery.status = .cancelled ∨ delivery.status = .sent then .ended .returned
            else .loading delivery attemptsMade)
  | .loading delivery attemptsMade =>
      some (store, match findById store.notifications delivery.notificationId with
        | none => .burying delivery (js "notification missing") delivery.attempts
        | some notification =>
            if delivery.channel ∈ providers then .rendering delivery notification (attemptsMade + 1)
            else .burying delivery (js "no provider for " ++ delivery.channel.text)
              delivery.attempts)
  | .rendering delivery notification attemptNo =>
      some (store, .sending delivery notification attemptNo (recipientFromDelivery delivery))
  | .sending delivery notification attemptNo _ =>
      some (store, settle delivery notification attemptNo input.result input)
  | .recording delivery notification attemptNo providerMessageId deliveredAt latencyMs =>
      (markResult store.deliveries delivery.id
          { status := .sent, providerMessageId, error := none, deliveredAt := some deliveredAt
            attempts := attemptNo }).map fun deliveries =>
        (store.withDeliveries deliveries,
          .emitting (.delivered notification.id delivery.id delivery.channel providerMessageId
            latencyMs notification.guildId) .returned)
  | .attempting delivery notification attemptNo error =>
      (markAttempt store.deliveries delivery.id attemptNo error).map fun deliveries =>
        (store.withDeliveries deliveries,
          .emitting (.failed notification.id delivery.id delivery.channel attemptNo false
              (error.getD (js "transient failure")) notification.guildId)
            (.threw (error.getD (js "transient delivery failure"))))
  | .burying delivery error attempts =>
      (markResult store.deliveries delivery.id
          { status := .dead, providerMessageId := none, error := some error, deliveredAt := none
            attempts }).map fun deliveries =>
        (store.withDeliveries deliveries, .reporting delivery error attempts)
  | .reporting delivery error attempts =>
      some (store, .emitting (.failed delivery.notificationId delivery.id delivery.channel attempts
        true error ((findById store.notifications delivery.notificationId).bind
          NotificationRecord.guildId)) .returned)
  | .emitting _ outcome => some (store, .ended outcome)
  | .examining data error =>
      some (store, match findDelivery store.deliveries data.deliveryId with
        | none => .ended .returned
        | some delivery =>
            if delivery.status = .sent ∨ delivery.status = .cancelled then .ended .returned
            else .burying delivery error delivery.attempts)
  | .listing notificationId =>
      some (store, match findPending store.deliveries notificationId with
        | [] => .ended .returned
        | pending => .cancelling notificationId pending)
  | .cancelling notificationId pending =>
      some (store.withDeliveries (updatePending store.deliveries notificationId),
        .removing notificationId pending)
  | .removing notificationId pending =>
      if pending = [] then some (store, .ended .returned)
      else if input.deliveryId ∈ pending then
        some ({ store with jobs :=
            if input.locked then store.jobs
            else store.jobs.filter fun job => job ≠ input.deliveryId },
          .removing notificationId (pending.erase input.deliveryId))
      else none
  | .ended _ => none

/-- What a call does when its `await` rejects: only a provider's error and the event of a failure
are caught. -/
def reject (input : Input) (message : JsString) : Call → Option Call
  | .sending delivery notification attemptNo _ =>
      some (settle delivery notification attemptNo
        { ok := false, providerMessageId := none, retryable := true, error := some message } input)
  | .emitting (.failed ..) outcome => some (.ended outcome)
  | .ended _ => none
  | _ => some (.ended (.threw message))

def Call.proceeds (providers : List NotificationChannel) (store : Store) (input : Input)
    (call : Call) : Option (Store × Call) :=
  match input.failure with
  | none => proceed providers store input call
  | some message => (reject input message call).map fun next => (store, next)

/-! Runs: workers take jobs of the queue, any number of times, and the other calls may begin at any
time. -/

inductive Happening
  | changed (deliveryId : JsString) (before after : DeliveryStatus)
  | sending (deliveryId notificationId : JsString) (status : Option DeliveryStatus)
  | cancelled (notificationId : JsString)
  deriving DecidableEq

def statusChange (after : DeliveryTable) (row : DeliveryRecord) : Option Happening :=
  (after.find row.id).bind fun later =>
    if later.status = row.status then none
    else some (.changed row.id row.status later.status)

/-- That a send begins, or that `cancelPending` has returned. -/
def Call.announces (store : Store) : Call → Call → List Happening
  | .rendering delivery _ _, .sending .. =>
      [.sending delivery.id delivery.notificationId
        ((store.deliveries.find delivery.id).map DeliveryRecord.status)]
  | .listing notificationId, .ended .returned => [.cancelled notificationId]
  | .removing notificationId _, .ended .returned => [.cancelled notificationId]
  | _, _ => []

structure State where
  store : Store
  calls : List Call
  history : List Happening

def State.start (store : Store) : State := { store, calls := [], history := [] }

inductive Action
  | work (data : DeliveryJobData) (attemptsMade : Nat)
  | exhaust (data : DeliveryJobData) (error : JsString)
  | cancelPending (notificationId : JsString)
  | advance (index : Nat) (input : Input)

variable (providers : List NotificationChannel)

def step (state : State) : Action → Option State
  | .work data attemptsMade =>
      if data.deliveryId ∈ state.store.jobs then
        some { state with calls := state.calls ++ [.finding data attemptsMade] }
      else none
  | .exhaust data error => some { state with calls := state.calls ++ [.examining data error] }
  | .cancelPending notificationId =>
      some { state with calls := state.calls ++ [.listing notificationId] }
  | .advance index input =>
      (state.calls[index]?).bind fun call =>
        (call.proceeds providers state.store input).map fun (store, next) =>
          { store, calls := state.calls.set index next
            history := state.history ++ state.store.deliveries.rows.filterMap
                (statusChange store.deliveries) ++ call.announces store next }

end Notifications
