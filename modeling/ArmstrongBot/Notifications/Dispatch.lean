import ArmstrongBot.Library.JsMethods
import ArmstrongBot.Library.StepMachine
import ArmstrongBot.Notifications.Records

/-! `NotificationService.dispatch` for one guild and dedupe key, from await to await. -/

namespace Notifications.Dispatch

open JsText
open Calendar (Timestamp)

structure DispatchNotificationInput where
  guildId : Option JsString
  category : NotificationCategory
  priority : Option NotificationPriority
  templateKey : JsString
  recipients : List NotificationRecipient
  dedupeKey : Option JsString
  deriving DecidableEq

structure ChannelDecision where
  channel : NotificationChannel
  allowed : Bool
  reason : Option JsString
  deriving DecidableEq

structure NotificationsConfig where
  dedupeTtlSeconds : Nat
  maxDeliveryAttempts : Nat
  backoffBaseMs : Nat

/-! The plan. -/

structure CreateDeliveryInput where
  channel : NotificationChannel
  recipientUserId : Option JsString
  recipientRef : Option JsString
  scheduledFor : Option Timestamp
  deriving DecidableEq

/-- An empty text counts as none. -/
def truthy (text : Option JsString) : Option JsString := text.filter fun text => text ≠ []

def channelRequiresAddress : NotificationChannel → Bool
  | .email | .push | .webhook => true
  | .discordDm | .discordChannel => false

def recipientRef (recipient : NotificationRecipient) : NotificationChannel → Option JsString
  | .discordDm => recipient.userId
  | .discordChannel => recipient.channelId
  | .email => recipient.email
  | .push => recipient.pushEndpoint
  | .webhook => recipient.webhookUrl

abbrev Skip := NotificationChannel × JsString

def planFor (recipient : NotificationRecipient) (decision : ChannelDecision) :
    Except JsString CreateDeliveryInput :=
  let ref := recipientRef recipient decision.channel
  if !decision.allowed then .error (decision.reason.getD (js "not-allowed"))
  else if channelRequiresAddress decision.channel && (truthy ref).isNone then
    .error (js "missing address for " ++ decision.channel.text)
  else if decision.channel = .discordDm && (truthy recipient.userId).isNone ||
      decision.channel = .discordChannel && (truthy recipient.channelId).isNone then
    .error (js "missing target for " ++ decision.channel.text)
  else
    .ok { channel := decision.channel, recipientUserId := recipient.userId, recipientRef := ref
          scheduledFor := none }

structure Plan where
  planned : List CreateDeliveryInput
  skipped : List Skip
  deriving DecidableEq

def Plan.empty : Plan := { planned := [], skipped := [] }

def Plan.add (recipient : NotificationRecipient) (plan : Plan) (decision : ChannelDecision) :
    Plan :=
  match planFor recipient decision with
  | .ok delivery => { plan with planned := plan.planned ++ [delivery] }
  | .error reason => { plan with skipped := plan.skipped ++ [(decision.channel, reason)] }

/-! The tables and the queue. -/

/-- A delivery is one of a notification. -/
structure Database where
  notifications : NotificationTable
  deliveries : DeliveryTable
  owned : ∀ row ∈ deliveries.rows, row.notificationId ∈ notifications.rows.map NotificationRecord.id

theorem Database.empty_owned : ∀ row ∈ (Table.empty : DeliveryTable).rows,
    row.notificationId ∈ (Table.empty : NotificationTable).rows.map NotificationRecord.id := by
  simp [Table.empty]

structure CreateNotificationInput where
  guildId : Option JsString
  category : NotificationCategory
  priority : NotificationPriority
  templateKey : JsString
  dedupeKey : Option JsString
  deliveries : List CreateDeliveryInput

/-- What the database makes up for the rows. -/
structure Generated where
  id : JsString
  deliveryIds : List JsString
  now : Timestamp
  deriving DecidableEq

def CreateNotificationInput.row (input : CreateNotificationInput) (generated : Generated) :
    NotificationRecord :=
  { id := generated.id, guildId := input.guildId, category := input.category
    priority := input.priority, templateKey := input.templateKey, dedupeKey := input.dedupeKey
    createdAt := generated.now, deletedAt := none }

def CreateDeliveryInput.row (notificationId id : JsString) (input : CreateDeliveryInput) :
    DeliveryRecord :=
  { id, notificationId, channel := input.channel, status := .pending
    recipientUserId := input.recipientUserId, recipientRef := input.recipientRef
    providerMessageId := none, attempts := 0, lastError := none
    scheduledFor := input.scheduledFor, deliveredAt := none }

def CreateNotificationInput.deliveryRows (input : CreateNotificationInput)
    (generated : Generated) : List DeliveryRecord :=
  List.zipWith (CreateDeliveryInput.row generated.id) generated.deliveryIds input.deliveries

theorem deliveryRows_notificationId {input : CreateNotificationInput} {generated : Generated}
    {row : DeliveryRecord} (member : row ∈ input.deliveryRows generated) :
    row.notificationId = generated.id := by
  rw [CreateNotificationInput.deliveryRows, ← List.map_uncurry_zip_eq_zipWith] at member
  obtain ⟨⟨id, delivery⟩, _, rfl⟩ := List.mem_map.mp member
  rfl

/-- The notification and its deliveries, in one transaction. -/
def Database.create (database : Database) (input : CreateNotificationInput)
    (generated : Generated) : Option Database :=
  match inserted : database.notifications.insert (input.row generated),
      added : database.deliveries.insertAll (input.deliveryRows generated) with
  | some notifications, some deliveries =>
      if generated.deliveryIds.length = input.deliveries.length then
        some
          { notifications, deliveries
            owned := by
              intro row member
              rw [Table.insertAll_rows added] at member
              rw [(Table.insert_eq_some_iff.mp inserted).2, List.map_append]
              rcases List.mem_append.mp member with earlier | isNew
              · exact List.mem_append_left _ (database.owned row earlier)
              · rw [deliveryRows_notificationId isNew]
                exact List.mem_append_right _ (List.mem_singleton.mpr rfl) }
      else none
  | _, _ => none

def Database.deliveriesOf (database : Database) (notificationId : JsString) :
    List DeliveryRecord :=
  database.deliveries.rows.filter fun row => row.notificationId = notificationId

def later (found : Option NotificationRecord) (row : NotificationRecord) :
    Option NotificationRecord :=
  match found with
  | some known => if known.createdAt < row.createdAt then some row else some known
  | none => some row

/-- The latest one that lives. -/
def Database.findByDedupeKey (database : Database) (guildId : Option JsString)
    (dedupeKey : JsString) : Option NotificationRecord :=
  (database.notifications.rows.filter fun row =>
    row.guildId = guildId ∧ row.dedupeKey = some dedupeKey ∧ row.deletedAt = none).foldl later none

structure DeliveryJob where
  jobId : JsString
  data : DeliveryJobData
  attempts : Nat
  backoffMs : Nat
  delay : Option Int
  deriving DecidableEq

def deliveryJobId (deliveryId : JsString) : JsString := js "deliver:" ++ deliveryId

/-- The queue ignores a job whose id it has. -/
def enqueueDelivery (jobs : List DeliveryJob) (data : DeliveryJobData) (attempts backoffMs : Nat)
    (delayMs : Int) : List DeliveryJob :=
  if deliveryJobId data.deliveryId ∈ jobs.map DeliveryJob.jobId then jobs
  else jobs ++ [{ jobId := deliveryJobId data.deliveryId, data, attempts, backoffMs
                  delay := if 0 < delayMs then some delayMs else none }]

/-! The cache keys of `DedupeService`. -/

/-- `forGuild` throws for a blank guild id. -/
def cacheKey (guildId : Option JsString) (dedupeKey : JsString) : Option JsString :=
  match truthy guildId with
  | some id =>
      if trim id = [] then none
      else some (js "guild:" ++ id ++ js ":generic:notif:dedupe:" ++ dedupeKey)
  | none => some (js "global:generic:notif:dedupe:" ++ dedupeKey)

/-! A call. -/

inductive Answer
  | deduped (prior : Option NotificationRecord)
  | skipped (skipped : List Skip)
  | dispatched (record : NotificationRecord) (deliveries : Nat) (skipped : List Skip)
  deriving DecidableEq

structure DispatchResult where
  notificationId : JsString
  enqueuedDeliveries : Nat
  skipped : List Skip
  deriving DecidableEq

def Answer.result : Answer → DispatchResult
  | .deduped prior =>
      { notificationId := (prior.map NotificationRecord.id).getD (js "deduped")
        enqueuedDeliveries := 0, skipped := [(.discordChannel, js "deduped")] }
  | .skipped skips =>
      { notificationId := js "skipped", enqueuedDeliveries := 0, skipped := skips }
  | .dispatched record deliveries skips =>
      { notificationId := record.id, enqueuedDeliveries := deliveries, skipped := skips }

inductive Phase
  | checking
  | lookingUp
  | marking
  | resolving (recipient : NotificationRecipient) (left : List NotificationRecipient) (plan : Plan)
  | releasing (skipped : List Skip)
  | creating (plan : Plan)
  | emitting (record : NotificationRecord) (deliveries : List DeliveryRecord)
      (skipped : List Skip)
  | enqueueing (record : NotificationRecord) (deliveries : Nat) (delivery : DeliveryRecord)
      (left : List DeliveryRecord) (skipped : List Skip)
  | answered (answer : Answer)
  | failed
  deriving DecidableEq

structure Call where
  input : DispatchNotificationInput
  claimed : Bool
  phase : Phase
  deriving DecidableEq

def Call.to (call : Call) (phase : Phase) : Call := { call with phase }

@[simp] theorem Call.to_phase (call : Call) (phase : Phase) : (call.to phase).phase = phase := rfl

@[simp] theorem Call.to_claimed (call : Call) (phase : Phase) :
    (call.to phase).claimed = call.claimed := rfl

@[simp] theorem Call.to_input (call : Call) (phase : Phase) :
    (call.to phase).input = call.input := rfl

/-- Where the loop over the recipients goes on, or what follows it. -/
def planning (dedupeKey : Option JsString) (recipients : List NotificationRecipient) (plan : Plan) :
    Phase :=
  match recipients with
  | recipient :: left => .resolving recipient left plan
  | [] =>
      if plan.planned = [] then
        if (truthy dedupeKey).isSome then .releasing plan.skipped
        else .answered (.skipped plan.skipped)
      else .creating plan

def enqueuing (record : NotificationRecord) (deliveries : Nat) (left : List DeliveryRecord)
    (skipped : List Skip) : Phase :=
  match left with
  | delivery :: left => .enqueueing record deliveries delivery left skipped
  | [] => .answered (.dispatched record deliveries skipped)

/-- A call before its first await. -/
def doDispatch (config : NotificationsConfig) (input : DispatchNotificationInput) : Call :=
  { input, claimed := false
    phase :=
      match truthy input.dedupeKey with
      | some dedupeKey =>
          if config.dedupeTtlSeconds = 0 then planning input.dedupeKey input.recipients .empty
          else if (cacheKey input.guildId dedupeKey).isNone then .failed
          else .checking
      | none => planning input.dedupeKey input.recipients .empty }

/-- What the step between two awaits may depend on. -/
structure Input where
  fails : Bool
  decisions : List ChannelDecision
  generated : Generated
  now : Timestamp
  deriving DecidableEq

/-- The tables, the claimed cache keys and the queue, with the events published and the
notifications created. Within the time to live no claim runs out. -/
structure State where
  database : Database
  claims : List JsString
  jobs : List DeliveryJob
  events : List NotificationEvent
  created : List JsString
  calls : List Call

def State.start (database : Database) (jobs : List DeliveryJob) : State :=
  { database, claims := [], jobs, events := [], created := [], calls := [] }

def Call.createInput (call : Call) (planned : List CreateDeliveryInput) : CreateNotificationInput :=
  { guildId := call.input.guildId, category := call.input.category
    priority := call.input.priority.getD .normal, templateKey := call.input.templateKey
    dedupeKey := call.input.dedupeKey, deliveries := planned }

def Call.key (call : Call) : Option JsString :=
  (truthy call.input.dedupeKey).bind fun dedupeKey => cacheKey call.input.guildId dedupeKey

/-- The phases whose failure rejects the call; those of the cache have no failure. -/
def Phase.mayFail : Phase → Bool
  | .lookingUp | .resolving .. | .creating _ | .emitting .. | .enqueueing .. => true
  | _ => false

def delayMs (delivery : DeliveryRecord) (now : Timestamp) : Int :=
  match delivery.scheduledFor with
  | some scheduledFor => max 0 (scheduledFor - now)
  | none => 0

def proceed (config : NotificationsConfig) (state : State) (call : Call) (input : Input) :
    Option (State × Call) :=
  match call.phase with
  | .checking =>
      call.key.map fun key =>
        (state, call.to (if key ∈ state.claims then .lookingUp else .marking))
  | .lookingUp =>
      some (state, call.to (.answered (.deduped
        ((truthy call.input.dedupeKey).bind fun dedupeKey =>
          state.database.findByDedupeKey call.input.guildId dedupeKey))))
  | .marking =>
      call.key.map fun key =>
        ({ state with claims := key :: state.claims },
          { call with
            claimed := true
            phase := planning call.input.dedupeKey call.input.recipients .empty })
  | .resolving recipient left plan =>
      some (state, call.to (planning call.input.dedupeKey left
        (input.decisions.foldl (Plan.add recipient) plan)))
  | .releasing skipped =>
      some (match call.key with
        | some key =>
            ({ state with claims := state.claims.filter fun claimed => claimed ≠ key },
              call.to (.answered (.skipped skipped)))
        | none => (state, call.to .failed))
  | .creating plan =>
      (state.database.create (call.createInput plan.planned) input.generated).map fun database =>
        ({ state with database, created := state.created ++ [input.generated.id] },
          call.to (.emitting ((call.createInput plan.planned).row input.generated)
            ((call.createInput plan.planned).deliveryRows input.generated) plan.skipped))
  | .emitting record deliveries skipped =>
      some ({ state with events := state.events ++
          [.created record.id record.guildId record.category
            (deliveries.map DeliveryRecord.channel).eraseDups] },
        call.to (enqueuing record deliveries.length deliveries skipped))
  | .enqueueing record deliveries delivery left skipped =>
      let data := { deliveryId := delivery.id, notificationId := record.id }
      some ({ state with
          jobs := enqueueDelivery state.jobs data config.maxDeliveryAttempts config.backoffBaseMs
            (delayMs delivery input.now) },
        call.to (enqueuing record deliveries left skipped))
  | .answered _ | .failed => none

def advance (config : NotificationsConfig) (state : State) (call : Call) (input : Input) :
    Option (State × Call) :=
  if input.fails then
    if call.phase.mayFail then some (state, call.to .failed) else none
  else proceed config state call input

inductive Action
  | dispatch (input : DispatchNotificationInput)
  | advance (index : Nat) (input : Input)

/-- The calls of a run have one guild and one key. -/
def step (config : NotificationsConfig) (guildId : Option JsString) (dedupeKey : JsString)
    (state : State) : Action → Option State
  | .dispatch input =>
      if input.guildId = guildId ∧ input.dedupeKey = some dedupeKey then
        some { state with calls := state.calls ++ [doDispatch config input] }
      else none
  | .advance index input =>
      (state.calls[index]?).bind fun call =>
        (advance config state call input).map fun (after, next) =>
          { after with calls := state.calls.set index next }

end Notifications.Dispatch
