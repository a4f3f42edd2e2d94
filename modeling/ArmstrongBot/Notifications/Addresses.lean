import ArmstrongBot.Notifications.Delivery
import ArmstrongBot.Notifications.Preferences

/-! The transports, and the calls of `dispatch` next to the workers that deliver: what is sent, and
where to. -/

namespace Notifications.Addresses

open JsText StepMachine
open Dispatch (CreateDeliveryInput ChannelDecision Database Generated Plan planFor recipientRef
  truthy)

/-! The transports. -/

structure ProvidersConfig where
  emailEnabled : Bool
  smtpUrl : Option JsString
  pushEnabled : Bool
  vapidPublicKey : Option JsString
  vapidPrivateKey : Option JsString

def permanent (error : JsString) : ProviderSendResult :=
  { ok := false, providerMessageId := none, retryable := false, error := some error }

/-- What a transport answers when it is given an address. -/
abbrev Transport := JsString → ProviderSendResult

def sendTo (transport : Transport) (address : Option JsString) (missing : JsString) :
    ProviderSendResult :=
  match truthy address with
  | some address => transport address
  | none => permanent missing

def discordDmSend (transport : Transport) (recipient : NotificationRecipient) :
    ProviderSendResult :=
  sendTo transport recipient.userId (js "DISCORD_DM requires a recipient userId")

def discordChannelSend (transport : Transport) (recipient : NotificationRecipient) :
    ProviderSendResult :=
  sendTo transport recipient.channelId (js "DISCORD_CHANNEL requires a recipient channelId")

def webhookSend (transport : Transport) (recipient : NotificationRecipient) : ProviderSendResult :=
  sendTo transport recipient.webhookUrl (js "WEBHOOK requires a webhookUrl")

def emailSend (config : ProvidersConfig) (transport : Transport)
    (recipient : NotificationRecipient) : ProviderSendResult :=
  if !config.emailEnabled then permanent (js "email channel disabled")
  else if (truthy config.smtpUrl).isNone then
    permanent (js "email channel enabled but NOTIFICATIONS_EMAIL_SMTP_URL is unset")
  else sendTo transport recipient.email (js "EMAIL requires a recipient email")

def pushSend (config : ProvidersConfig) (transport : Transport)
    (recipient : NotificationRecipient) : ProviderSendResult :=
  if !config.pushEnabled then permanent (js "push channel disabled")
  else if (truthy config.vapidPublicKey).isNone || (truthy config.vapidPrivateKey).isNone then
    permanent (js "push channel enabled but VAPID keys are unset")
  else sendTo transport recipient.pushEndpoint (js "PUSH requires a pushEndpoint")

def send (config : ProvidersConfig) (transport : NotificationChannel → Transport)
    (recipient : NotificationRecipient) (channel : NotificationChannel) : ProviderSendResult :=
  match channel with
  | .discordDm => discordDmSend (transport .discordDm) recipient
  | .discordChannel => discordChannelSend (transport .discordChannel) recipient
  | .webhook => webhookSend (transport .webhook) recipient
  | .email => emailSend config (transport .email) recipient
  | .push => pushSend config (transport .push) recipient

/-- The transport is switched on and has what it needs. -/
def ProvidersConfig.serves (config : ProvidersConfig) : NotificationChannel → Bool
  | .discordDm | .discordChannel | .webhook => true
  | .email => config.emailEnabled && (truthy config.smtpUrl).isSome
  | .push => config.pushEnabled && (truthy config.vapidPublicKey).isSome &&
      (truthy config.vapidPrivateKey).isSome

/-! Calls of `dispatch` and workers on one database and one queue. -/

structure Joint where
  dispatch : Dispatch.State
  workers : List Call

def Joint.store (joint : Joint) : Store :=
  { notifications := joint.dispatch.database.notifications
    deliveries := joint.dispatch.database.deliveries
    jobs := joint.dispatch.jobs.map fun job => job.data.deliveryId }

def Joint.start (database : Database) : Joint :=
  { dispatch := .start database [], workers := [] }

/-- The table of the notifications stays as it is. -/
def writeDeliveries (database : Database) (deliveries : DeliveryTable) : Option Database :=
  if owned : ∀ row ∈ deliveries.rows,
      row.notificationId ∈ database.notifications.rows.map NotificationRecord.id then
    some { notifications := database.notifications, deliveries, owned }
  else none

inductive JointAction
  | dispatch (input : Dispatch.DispatchNotificationInput)
  | advance (index : Nat) (input : Dispatch.Input)
  | work (action : Action)

/-- One step of either side; a worker writes deliveries and takes jobs away. -/
def jointStep (config : Dispatch.NotificationsConfig) (providers : List NotificationChannel)
    (joint : Joint) : JointAction → Option Joint
  | .dispatch input =>
      some { joint with dispatch := { joint.dispatch with
        calls := joint.dispatch.calls ++ [Dispatch.doDispatch config input] } }
  | .advance index input =>
      (joint.dispatch.calls[index]?).bind fun call =>
        (Dispatch.advance config joint.dispatch call input).map fun taken =>
          { joint with dispatch := { taken.1 with
              calls := joint.dispatch.calls.set index taken.2 } }
  | .work action =>
      (step providers { store := joint.store, calls := joint.workers, history := [] }
        action).bind fun after =>
          (writeDeliveries joint.dispatch.database after.store.deliveries).map fun database =>
            { dispatch := { joint.dispatch with
                database
                jobs := joint.dispatch.jobs.filter fun job =>
                  after.store.jobs.contains job.data.deliveryId }
              workers := after.calls }

/-! Addresses. -/

/-- What a delivery says of its recipient is enough for its channel. -/
structure AddressedTo (channel : NotificationChannel) (userId ref : Option JsString) : Prop where
  present : (truthy ref).isSome = true
  direct : channel = .discordDm → userId = ref

theorem planFor_addressed {recipient : NotificationRecipient} {decision : ChannelDecision}
    {delivery : CreateDeliveryInput} (planned : planFor recipient decision = .ok delivery) :
    AddressedTo delivery.channel delivery.recipientUserId delivery.recipientRef := by
  rcases Preferences.planFor_cases recipient decision with
    ⟨_, addressed, isPlan⟩ | ⟨_, reason, isPlan⟩
  · rw [isPlan] at planned
    obtain rfl := Except.ok.inj planned
    refine ⟨addressed, fun isDirect => ?_⟩
    have isChannel : decision.channel = .discordDm := isDirect
    simp [Preferences.deliveryTo, isChannel, recipientRef]
  · rw [isPlan] at planned
    cases planned

/-- A provider that serves the channel hands its transport the address that was stored. -/
theorem send_addressed (config : ProvidersConfig) (transport : NotificationChannel → Transport)
    {delivery : DeliveryRecord} (serves : config.serves delivery.channel = true)
    (addressed : AddressedTo delivery.channel delivery.recipientUserId delivery.recipientRef) :
    ∃ address, delivery.recipientRef = some address ∧
      send config transport (recipientFromDelivery delivery) delivery.channel =
        transport delivery.channel address := by
  obtain ⟨address, isAddress⟩ := Option.isSome_iff_exists.mp addressed.present
  have isRef : delivery.recipientRef = some address := (Option.filter_eq_some_iff.mp isAddress).1
  refine ⟨address, isRef, ?_⟩
  cases isChannel : delivery.channel with
  | discordDm =>
      have direct := addressed.direct isChannel
      simp [send, discordDmSend, sendTo, recipientFromDelivery, isChannel, direct, isAddress]
  | discordChannel =>
      simp [send, discordChannelSend, sendTo, recipientFromDelivery, isChannel, isAddress]
  | webhook => simp [send, webhookSend, sendTo, recipientFromDelivery, isChannel, isAddress]
  | email =>
      rw [isChannel] at serves
      simp only [ProvidersConfig.serves, Bool.and_eq_true] at serves
      have present : (truthy config.smtpUrl).isNone = false := by
        rw [← Option.not_isSome, serves.2]
        rfl
      simp [send, emailSend, sendTo, recipientFromDelivery, isChannel, isAddress, serves.1, present]
  | push =>
      rw [isChannel] at serves
      simp only [ProvidersConfig.serves, Bool.and_eq_true] at serves
      have publicKey : (truthy config.vapidPublicKey).isNone = false := by
        rw [← Option.not_isSome, serves.1.2]
        rfl
      have privateKey : (truthy config.vapidPrivateKey).isNone = false := by
        rw [← Option.not_isSome, serves.2]
        rfl
      simp [send, pushSend, sendTo, recipientFromDelivery, isChannel, isAddress, serves.1.1,
        publicKey, privateKey]

/-! What a worker does to the rows, and what it holds of them. -/

/-- Each row has come from a row with the same notification and recipient. -/
def KeepsRecipients (before after : DeliveryTable) : Prop :=
  ∀ row ∈ after.rows, ∃ earlier ∈ before.rows, earlier.notificationId = row.notificationId ∧
    earlier.channel = row.channel ∧ earlier.recipientUserId = row.recipientUserId ∧
    earlier.recipientRef = row.recipientRef

theorem keepsRecipients_refl (deliveries : DeliveryTable) :
    KeepsRecipients deliveries deliveries := fun row member => ⟨row, member, rfl, rfl, rfl, rfl⟩

theorem keepsRecipients_of_find {before after : DeliveryTable}
    {change : JsString → DeliveryRecord → DeliveryRecord}
    (same : ∀ id row, (change id row).notificationId = row.notificationId ∧
      (change id row).channel = row.channel ∧
      (change id row).recipientUserId = row.recipientUserId ∧
      (change id row).recipientRef = row.recipientRef)
    (found : ∀ id, after.find id = (before.find id).map (change id)) :
    KeepsRecipients before after := by
  intro row member
  have isRow := Table.find_key member
  rw [found] at isRow
  obtain ⟨earlier, isEarlier, isChanged⟩ := Option.map_eq_some_iff.mp isRow
  obtain ⟨notificationId, channel, userId, ref⟩ := same row.id earlier
  rw [isChanged] at notificationId channel userId ref
  exact ⟨earlier, (Table.find_eq_some_iff.mp isEarlier).1, notificationId.symm, channel.symm,
    userId.symm, ref.symm⟩

theorem keepsRecipients_markResult {before after : DeliveryTable} {id : JsString}
    {input : MarkResultInput} (marked : markResult before id input = some after) :
    KeepsRecipients before after := by
  refine keepsRecipients_of_find ?_ (find_markResult marked)
  intro other row
  split <;> exact ⟨rfl, rfl, rfl, rfl⟩

theorem keepsRecipients_markAttempt {before after : DeliveryTable} {id : JsString} {attempts : Nat}
    {error : Option JsString} (marked : markAttempt before id attempts error = some after) :
    KeepsRecipients before after := by
  refine keepsRecipients_of_find ?_ (find_markAttempt marked)
  intro other row
  split <;> exact ⟨rfl, rfl, rfl, rfl⟩

theorem keepsRecipients_updatePending (before : DeliveryTable) (notificationId : JsString) :
    KeepsRecipients before (updatePending before notificationId) := by
  refine keepsRecipients_of_find ?_ (find_updatePending before notificationId)
  intro other row
  split <;> exact ⟨rfl, rfl, rfl, rfl⟩

/-- The deliveries on their way to a provider. -/
def held : Call → List DeliveryRecord
  | .loading delivery _ | .rendering delivery _ _ | .sending delivery _ _ _ => [delivery]
  | _ => []

def recipientOf : Call → Option (DeliveryRecord × NotificationRecipient)
  | .sending delivery _ _ recipient => some (delivery, recipient)
  | _ => none

/-- A step of a worker. -/
structure Works (store : Store) (call : Call) (after : Store) (next : Call) : Prop where
  keeps : KeepsRecipients store.deliveries after.deliveries
  holds : ∀ delivery ∈ held next, delivery ∈ held call ∨ delivery ∈ store.deliveries.rows
  sends : ∀ delivery recipient, recipientOf next = some (delivery, recipient) →
    recipient = recipientFromDelivery delivery

/-- A step after which nothing is on its way. -/
theorem works_quiet {store after : Store} {call next : Call}
    (keeps : KeepsRecipients store.deliveries after.deliveries) (holds : held next = [])
    (sends : recipientOf next = none) : Works store call after next := by
  refine ⟨keeps, ?_, ?_⟩
  · rw [holds]
    simp
  · rw [sends]
    simp

theorem works_settle (store : Store) (call : Call) (delivery : DeliveryRecord)
    (notification : NotificationRecord) (attemptNo : Nat) (result : ProviderSendResult)
    (input : Input) :
    Works store call store (settle delivery notification attemptNo result input) := by
  unfold settle
  split
  · exact works_quiet (keepsRecipients_refl _) rfl rfl
  · split <;> exact works_quiet (keepsRecipients_refl _) rfl rfl

theorem works_proceed {providers : List NotificationChannel} {store after : Store} {input : Input}
    {call next : Call} (taken : proceed providers store input call = some (after, next)) :
    Works store call after next := by
  cases call with
  | finding data attemptsMade =>
      obtain ⟨rfl, rfl⟩ := Prod.mk.inj (Option.some.inj taken)
      cases found : findDelivery store.deliveries data.deliveryId with
      | none => exact works_quiet (keepsRecipients_refl _) rfl rfl
      | some delivery =>
          dsimp only
          split
          · exact works_quiet (keepsRecipients_refl _) rfl rfl
          · refine ⟨keepsRecipients_refl _, ?_, by simp [recipientOf]⟩
            intro other isHeld
            rw [List.mem_singleton.mp isHeld]
            exact .inr (Table.find_eq_some_iff.mp found).1
  | loading delivery attemptsMade =>
      obtain ⟨rfl, rfl⟩ := Prod.mk.inj (Option.some.inj taken)
      cases findById store.notifications delivery.notificationId with
      | none => exact works_quiet (keepsRecipients_refl _) rfl rfl
      | some notification =>
          dsimp only
          split
          · exact ⟨keepsRecipients_refl _, fun _ isHeld => .inl isHeld, by simp [recipientOf]⟩
          · exact works_quiet (keepsRecipients_refl _) rfl rfl
  | rendering delivery notification attemptNo =>
      obtain ⟨rfl, rfl⟩ := Prod.mk.inj (Option.some.inj taken)
      refine ⟨keepsRecipients_refl _, fun _ isHeld => .inl isHeld, ?_⟩
      intro other recipient isSending
      obtain ⟨rfl, rfl⟩ := Prod.mk.inj (Option.some.inj isSending)
      rfl
  | sending delivery notification attemptNo recipient =>
      obtain ⟨rfl, rfl⟩ := Prod.mk.inj (Option.some.inj taken)
      exact works_settle ..
  | recording delivery notification attemptNo providerMessageId deliveredAt latencyMs =>
      obtain ⟨deliveries, marked, isAfter⟩ := Option.map_eq_some_iff.mp taken
      obtain ⟨rfl, rfl⟩ := Prod.mk.inj isAfter
      exact works_quiet (keepsRecipients_markResult marked) rfl rfl
  | attempting delivery notification attemptNo error =>
      obtain ⟨deliveries, marked, isAfter⟩ := Option.map_eq_some_iff.mp taken
      obtain ⟨rfl, rfl⟩ := Prod.mk.inj isAfter
      exact works_quiet (keepsRecipients_markAttempt marked) rfl rfl
  | burying delivery error attempts =>
      obtain ⟨deliveries, marked, isAfter⟩ := Option.map_eq_some_iff.mp taken
      obtain ⟨rfl, rfl⟩ := Prod.mk.inj isAfter
      exact works_quiet (keepsRecipients_markResult marked) rfl rfl
  | reporting delivery error attempts =>
      obtain ⟨rfl, rfl⟩ := Prod.mk.inj (Option.some.inj taken)
      exact works_quiet (keepsRecipients_refl _) rfl rfl
  | emitting event outcome =>
      obtain ⟨rfl, rfl⟩ := Prod.mk.inj (Option.some.inj taken)
      exact works_quiet (keepsRecipients_refl _) rfl rfl
  | examining data error =>
      obtain ⟨rfl, rfl⟩ := Prod.mk.inj (Option.some.inj taken)
      cases findDelivery store.deliveries data.deliveryId with
      | none => exact works_quiet (keepsRecipients_refl _) rfl rfl
      | some delivery =>
          dsimp only
          split <;> exact works_quiet (keepsRecipients_refl _) rfl rfl
  | listing notificationId =>
      obtain ⟨rfl, rfl⟩ := Prod.mk.inj (Option.some.inj taken)
      cases findPending store.deliveries notificationId <;>
        exact works_quiet (keepsRecipients_refl _) rfl rfl
  | cancelling notificationId pending =>
      obtain ⟨rfl, rfl⟩ := Prod.mk.inj (Option.some.inj taken)
      exact works_quiet (keepsRecipients_updatePending store.deliveries notificationId) rfl rfl
  | removing notificationId pending =>
      simp only [proceed] at taken
      split at taken
      · obtain ⟨rfl, rfl⟩ := Prod.mk.inj (Option.some.inj taken)
        exact works_quiet (keepsRecipients_refl _) rfl rfl
      · split at taken
        · obtain ⟨rfl, rfl⟩ := Prod.mk.inj (Option.some.inj taken)
          exact works_quiet (keepsRecipients_refl _) rfl rfl
        · cases taken
  | ended outcome => cases taken

theorem works_reject {store : Store} {input : Input} {message : JsString} {call next : Call}
    (taken : reject input message call = some next) : Works store call store next := by
  unfold reject at taken
  split at taken
  · obtain rfl := Option.some.inj taken
    exact works_settle ..
  · obtain rfl := Option.some.inj taken
    exact works_quiet (keepsRecipients_refl _) rfl rfl
  · cases taken
  · obtain rfl := Option.some.inj taken
    exact works_quiet (keepsRecipients_refl _) rfl rfl

theorem works_proceeds {providers : List NotificationChannel} {store after : Store} {input : Input}
    {call next : Call} (taken : call.proceeds providers store input = some (after, next)) :
    Works store call after next := by
  unfold Call.proceeds at taken
  split at taken
  · exact works_proceed taken
  · obtain ⟨rejected, isRejected, isAfter⟩ := Option.map_eq_some_iff.mp taken
    obtain ⟨rfl, rfl⟩ := Prod.mk.inj isAfter
    exact works_reject isRejected

/-- What a worker writes is of the notifications that are there, so that its steps are those of
`step`. -/
theorem writeDeliveries_step {providers : List NotificationChannel} {joint : Joint}
    {action : Action} {after : State}
    (taken : step providers { store := joint.store, calls := joint.workers, history := [] } action =
      some after) :
    ∃ database, writeDeliveries joint.dispatch.database after.store.deliveries = some database := by
  have keeps : KeepsRecipients joint.dispatch.database.deliveries after.store.deliveries := by
    cases action with
    | work data attemptsMade =>
        simp only [step] at taken
        split at taken
        · obtain rfl := Option.some.inj taken
          exact keepsRecipients_refl _
        · cases taken
    | exhaust data error =>
        obtain rfl := Option.some.inj taken
        exact keepsRecipients_refl _
    | cancelPending notificationId =>
        obtain rfl := Option.some.inj taken
        exact keepsRecipients_refl _
    | advance index input =>
        obtain ⟨call, found, advanced⟩ := Option.bind_eq_some_iff.mp taken
        obtain ⟨⟨store, later⟩, proceeds, rfl⟩ := Option.map_eq_some_iff.mp advanced
        exact (works_proceeds proceeds).keeps
  have owned : ∀ row ∈ after.store.deliveries.rows, row.notificationId ∈
      joint.dispatch.database.notifications.rows.map NotificationRecord.id := by
    intro row member
    obtain ⟨earlier, isEarlier, notificationId, _⟩ := keeps row member
    rw [← notificationId]
    exact joint.dispatch.database.owned earlier isEarlier
  rw [writeDeliveries, dif_pos owned]
  exact ⟨_, rfl⟩

/-! What a call of `dispatch` plans, and what it stores of that. -/

def plannedIn : Dispatch.Phase → List CreateDeliveryInput
  | .resolving _ _ plan | .creating plan => plan.planned
  | _ => []

theorem plannedIn_planning {dedupeKey : Option JsString} {recipients : List NotificationRecipient}
    {plan : Plan} {delivery : CreateDeliveryInput}
    (member : delivery ∈ plannedIn (Dispatch.planning dedupeKey recipients plan)) :
    delivery ∈ plan.planned := by
  cases recipients with
  | cons recipient left => exact member
  | nil =>
      simp only [Dispatch.planning] at member
      split at member
      · split at member <;> cases member
      · exact member

theorem planned_foldl {recipient : NotificationRecipient} {decisions : List ChannelDecision}
    {plan : Plan} {delivery : CreateDeliveryInput}
    (member : delivery ∈ (decisions.foldl (Plan.add recipient) plan).planned) :
    delivery ∈ plan.planned ∨
      AddressedTo delivery.channel delivery.recipientUserId delivery.recipientRef := by
  induction decisions generalizing plan with
  | nil => exact .inl member
  | cons decision rest ih =>
      rcases ih member with earlier | addressed
      · unfold Plan.add at earlier
        split at earlier
        · rename_i added isPlan
          rcases List.mem_append.mp earlier with before | isNew
          · exact .inl before
          · rw [List.mem_singleton.mp isNew]
            exact .inr (planFor_addressed isPlan)
        · exact .inl earlier
      · exact .inr addressed

theorem plannedIn_enqueuing (record : NotificationRecord) (deliveries : Nat)
    (left : List DeliveryRecord) (skipped : List Dispatch.Skip) :
    plannedIn (Dispatch.enqueuing record deliveries left skipped) = [] := by
  cases left <;> rfl

theorem create_rows {database created : Database} {input : Dispatch.CreateNotificationInput}
    {generated : Generated} (isCreated : database.create input generated = some created) :
    created.deliveries.rows = database.deliveries.rows ++ input.deliveryRows generated := by
  unfold Database.create at isCreated
  split at isCreated
  · rename_i notifications deliveries inserted added
    split at isCreated
    · obtain rfl := Option.some.inj isCreated
      exact Table.insertAll_rows added
    · cases isCreated
  · cases isCreated

theorem mem_deliveryRows {input : Dispatch.CreateNotificationInput} {generated : Generated}
    {row : DeliveryRecord} (member : row ∈ input.deliveryRows generated) :
    ∃ delivery ∈ input.deliveries, delivery.channel = row.channel ∧
      delivery.recipientUserId = row.recipientUserId ∧
      delivery.recipientRef = row.recipientRef := by
  rw [Dispatch.CreateNotificationInput.deliveryRows, ← List.map_uncurry_zip_eq_zipWith] at member
  obtain ⟨⟨id, delivery⟩, isPair, rfl⟩ := List.mem_map.mp member
  exact ⟨delivery, (List.of_mem_zip isPair).2, rfl, rfl, rfl⟩

/-- A step of a call of `dispatch`. -/
structure Dispatches (state : Dispatch.State) (call : Dispatch.Call) (after : Dispatch.State)
    (next : Dispatch.Call) : Prop where
  stores : ∀ row ∈ after.database.deliveries.rows, row ∈ state.database.deliveries.rows ∨
    ∃ delivery ∈ plannedIn call.phase, delivery.channel = row.channel ∧
      delivery.recipientUserId = row.recipientUserId ∧ delivery.recipientRef = row.recipientRef
  plans : ∀ delivery ∈ plannedIn next.phase, delivery ∈ plannedIn call.phase ∨
    AddressedTo delivery.channel delivery.recipientUserId delivery.recipientRef

theorem dispatches_quiet {state after : Dispatch.State} {call next : Dispatch.Call}
    (same : after.database = state.database) (plans : plannedIn next.phase = []) :
    Dispatches state call after next := by
  constructor
  · intro row member
    rw [same] at member
    exact .inl member
  · rw [plans]
    simp

theorem dispatches_proceed {config : Dispatch.NotificationsConfig}
    {state after : Dispatch.State} {call next : Dispatch.Call} {input : Dispatch.Input}
    (taken : Dispatch.proceed config state call input = some (after, next)) :
    Dispatches state call after next := by
  unfold Dispatch.proceed at taken
  split at taken
  case h_1 isPhase =>
      obtain ⟨key, _, isAfter⟩ := Option.map_eq_some_iff.mp taken
      obtain ⟨rfl, rfl⟩ := Prod.mk.inj isAfter
      refine dispatches_quiet rfl ?_
      rw [Dispatch.Call.to_phase]
      split <;> rfl
  case h_2 isPhase =>
      obtain ⟨rfl, rfl⟩ := Prod.mk.inj (Option.some.inj taken)
      exact dispatches_quiet rfl rfl
  case h_3 isPhase =>
      obtain ⟨key, _, isAfter⟩ := Option.map_eq_some_iff.mp taken
      obtain ⟨rfl, rfl⟩ := Prod.mk.inj isAfter
      refine ⟨fun row member => .inl member, ?_⟩
      intro delivery member
      cases plannedIn_planning member
  case h_4 recipient left plan isPhase =>
      obtain ⟨rfl, rfl⟩ := Prod.mk.inj (Option.some.inj taken)
      refine ⟨fun row member => .inl member, ?_⟩
      intro delivery member
      rw [isPhase]
      exact planned_foldl (plannedIn_planning member)
  case h_5 skipped isPhase =>
      cases isKey : call.key <;> rw [isKey] at taken <;>
        obtain ⟨rfl, rfl⟩ := Prod.mk.inj (Option.some.inj taken) <;>
        exact dispatches_quiet rfl rfl
  case h_6 plan isPhase =>
      obtain ⟨database, created, isAfter⟩ := Option.map_eq_some_iff.mp taken
      obtain ⟨rfl, rfl⟩ := Prod.mk.inj isAfter
      refine ⟨?_, by simp [plannedIn]⟩
      intro row member
      rw [show ({ state with database, created := _ } : Dispatch.State).database = database from rfl,
        create_rows created, List.mem_append] at member
      rcases member with before | isNew
      · exact .inl before
      · refine .inr ?_
        rw [isPhase]
        exact mem_deliveryRows isNew
  case h_7 record deliveries skipped isPhase =>
      obtain ⟨rfl, rfl⟩ := Prod.mk.inj (Option.some.inj taken)
      exact dispatches_quiet rfl (plannedIn_enqueuing ..)
  case h_8 record deliveries delivery left skipped isPhase =>
      obtain ⟨rfl, rfl⟩ := Prod.mk.inj (Option.some.inj taken)
      exact dispatches_quiet rfl (plannedIn_enqueuing ..)
  case h_9 => cases taken
  case h_10 => cases taken

theorem dispatches_advance {config : Dispatch.NotificationsConfig} {state after : Dispatch.State}
    {call next : Dispatch.Call} {input : Dispatch.Input}
    (taken : Dispatch.advance config state call input = some (after, next)) :
    Dispatches state call after next := by
  unfold Dispatch.advance at taken
  split at taken
  · split at taken
    · obtain ⟨rfl, rfl⟩ := Prod.mk.inj (Option.some.inj taken)
      exact dispatches_quiet rfl rfl
    · cases taken
  · exact dispatches_proceed taken

/-! Every interleaving. -/

structure Sound (joint : Joint) : Prop where
  rows : ∀ row ∈ joint.dispatch.database.deliveries.rows,
    AddressedTo row.channel row.recipientUserId row.recipientRef
  plans : ∀ call ∈ joint.dispatch.calls, ∀ delivery ∈ plannedIn call.phase,
    AddressedTo delivery.channel delivery.recipientUserId delivery.recipientRef
  held : ∀ call ∈ joint.workers, ∀ delivery ∈ held call,
    AddressedTo delivery.channel delivery.recipientUserId delivery.recipientRef
  sends : ∀ call ∈ joint.workers, ∀ delivery recipient,
    recipientOf call = some (delivery, recipient) → recipient = recipientFromDelivery delivery

variable {config : Dispatch.NotificationsConfig} {providers : List NotificationChannel}
  {joint next : Joint}

theorem sound_dispatch (sound : Sound joint) (input : Dispatch.DispatchNotificationInput) :
    Sound { joint with dispatch := { joint.dispatch with
      calls := joint.dispatch.calls ++ [Dispatch.doDispatch config input] } } := by
  refine ⟨sound.rows, ?_, sound.held, sound.sends⟩
  intro call member
  rcases List.mem_append.mp member with before | isNew
  · exact sound.plans call before
  · rw [List.mem_singleton.mp isNew]
    intro delivery isPlanned
    unfold Dispatch.doDispatch at isPlanned
    dsimp only at isPlanned
    split at isPlanned
    · split at isPlanned
      · cases plannedIn_planning isPlanned
      · split at isPlanned <;> cases isPlanned
    · cases plannedIn_planning isPlanned

theorem sound_advance (sound : Sound joint) {index : Nat} {call later : Dispatch.Call}
    {after : Dispatch.State} (found : joint.dispatch.calls[index]? = some call)
    (taken : Dispatches joint.dispatch call after later) :
    Sound { joint with dispatch := { after with
      calls := joint.dispatch.calls.set index later } } := by
  have planned := sound.plans call (List.mem_of_getElem? found)
  refine ⟨?_, ?_, sound.held, sound.sends⟩
  · intro row member
    rcases taken.stores row member with before | ⟨delivery, isPlanned, channel, userId, ref⟩
    · exact sound.rows row before
    · rw [← channel, ← userId, ← ref]
      exact planned delivery isPlanned
  · intro other member delivery isPlanned
    rcases List.mem_or_eq_of_mem_set member with before | rfl
    · exact sound.plans other before delivery isPlanned
    · rcases taken.plans delivery isPlanned with before | addressed
      · exact planned delivery before
      · exact addressed

theorem sound_works (sound : Sound joint) {action : Action} {after : State} {database : Database}
    (taken : step providers { store := joint.store, calls := joint.workers, history := [] } action =
      some after) (deliveries : database.deliveries = after.store.deliveries)
    (jobs : List Dispatch.DeliveryJob) :
    Sound { dispatch := { joint.dispatch with database, jobs }, workers := after.calls } := by
  have started {call : Call} (isHeld : held call = []) (isSent : recipientOf call = none)
      (same : database.deliveries = joint.dispatch.database.deliveries) :
      Sound { dispatch := { joint.dispatch with database, jobs }
              workers := joint.workers ++ [call] } := by
    refine ⟨?_, sound.plans, ?_, ?_⟩
    · intro row member
      rw [same] at member
      exact sound.rows row member
    · intro other member
      rcases List.mem_append.mp member with before | isNew
      · exact sound.held other before
      · rw [List.mem_singleton.mp isNew, isHeld]
        simp
    · intro other member
      rcases List.mem_append.mp member with before | isNew
      · exact sound.sends other before
      · rw [List.mem_singleton.mp isNew, isSent]
        simp
  cases action with
  | work data attemptsMade =>
      simp only [step] at taken
      split at taken
      · obtain rfl := Option.some.inj taken
        exact started rfl rfl deliveries
      · cases taken
  | exhaust data error =>
      obtain rfl := Option.some.inj taken
      exact started rfl rfl deliveries
  | cancelPending notificationId =>
      obtain rfl := Option.some.inj taken
      exact started rfl rfl deliveries
  | advance index input =>
      obtain ⟨call, found, advanced⟩ := Option.bind_eq_some_iff.mp taken
      obtain ⟨⟨store, later⟩, proceeds, rfl⟩ := Option.map_eq_some_iff.mp advanced
      have works := works_proceeds proceeds
      have isWorker := List.mem_of_getElem? found
      refine ⟨?_, sound.plans, ?_, ?_⟩
      · intro row member
        rw [deliveries] at member
        obtain ⟨earlier, isEarlier, _, channel, userId, ref⟩ := works.keeps row member
        rw [← channel, ← userId, ← ref]
        exact sound.rows earlier isEarlier
      · intro other member delivery isHeld
        rcases List.mem_or_eq_of_mem_set member with before | rfl
        · exact sound.held other before delivery isHeld
        · rcases works.holds delivery isHeld with before | isRow
          · exact sound.held call isWorker delivery before
          · exact sound.rows delivery isRow
      · intro other member
        rcases List.mem_or_eq_of_mem_set member with before | rfl
        · exact sound.sends other before
        · exact works.sends

theorem sound_step (joint : Joint) (action : JointAction) (next : Joint) (sound : Sound joint)
    (taken : jointStep config providers joint action = some next) : Sound next := by
  cases action with
  | dispatch input =>
      obtain rfl := Option.some.inj taken
      exact sound_dispatch sound input
  | advance index input =>
      obtain ⟨call, found, advanced⟩ := Option.bind_eq_some_iff.mp taken
      obtain ⟨⟨after, later⟩, isTaken, rfl⟩ := Option.map_eq_some_iff.mp advanced
      exact sound_advance sound found (dispatches_advance isTaken)
  | work action =>
      obtain ⟨after, isTaken, written⟩ := Option.bind_eq_some_iff.mp taken
      obtain ⟨database, isWritten, rfl⟩ := Option.map_eq_some_iff.mp written
      unfold writeDeliveries at isWritten
      split at isWritten
      · obtain rfl := Option.some.inj isWritten
        exact sound_works sound isTaken rfl _
      · cases isWritten

/-- Whatever calls and workers interleave, what is sent goes to the address that was stored, if its
provider serves the channel: no delivery fails for want of a recipient. -/
theorem sends_to_address {database : Database} (empty : database.deliveries.rows = [])
    {actions : List JointAction}
    (ran : run (jointStep config providers) (.start database) actions = some joint)
    {delivery : DeliveryRecord} {notification : NotificationRecord} {attemptNo : Nat}
    {recipient : NotificationRecipient}
    (underway : .sending delivery notification attemptNo recipient ∈ joint.workers)
    (settings : ProvidersConfig) (transport : NotificationChannel → Transport)
    (serves : settings.serves delivery.channel = true) :
    ∃ address, delivery.recipientRef = some address ∧
      send settings transport recipient delivery.channel =
        transport delivery.channel address := by
  have initial : Sound (.start database) := by
    constructor
    · simp [Joint.start, Dispatch.State.start, empty]
    · simp [Joint.start, Dispatch.State.start]
    · simp [Joint.start]
    · simp [Joint.start]
  have sound := invariant_run (jointStep config providers) sound_step ran initial
  rw [sound.sends _ underway delivery recipient rfl]
  exact send_addressed settings transport serves
    (sound.held _ underway delivery (List.mem_singleton.mpr rfl))

def allServed : ProvidersConfig :=
  { emailEnabled := true, smtpUrl := some (js "smtp://mail"), pushEnabled := false
    vapidPublicKey := none, vapidPrivateKey := none }

def sentAnyway : NotificationChannel → Transport := fun _ _ =>
  { ok := true, providerMessageId := none, retryable := false, error := none }

def mailed : DeliveryRecord :=
  { id := js "d", notificationId := js "n", channel := .email, status := .pending
    recipientUserId := some (js "u"), recipientRef := some (js "u@example.org")
    providerMessageId := none, attempts := 0, lastError := none, scheduledFor := none
    deliveredAt := none }

def mailNotification : NotificationRecord :=
  { id := js "n", guildId := some (js "g"), category := .system, priority := .normal
    templateKey := js "t", dedupeKey := none, createdAt := 0, deletedAt := none }

def mailing : List JointAction :=
  let input : Dispatch.Input :=
    { fails := false, decisions := [{ channel := .email, allowed := true, reason := none }]
      generated := { id := js "n", deliveryIds := [js "d"], now := 0 }, now := 0 }
  let answer : Input :=
    { failure := none, result := permanent [], now := 0, latencyMs := 0, deliveryId := []
      locked := false }
  [.dispatch
      { guildId := some (js "g"), category := .system, priority := none, templateKey := js "t"
        recipients := [{ NotificationRecipient.nobody with
          userId := some (js "u"), email := some (js "u@example.org") }]
        dedupeKey := none },
    .advance 0 input, .advance 0 input, .advance 0 input, .advance 0 input,
    .work (.work { deliveryId := js "d", notificationId := js "n" } 0),
    .work (.advance 0 answer), .work (.advance 0 answer), .work (.advance 0 answer)]

def hourlyConfig : Dispatch.NotificationsConfig :=
  { dedupeTtlSeconds := 3600, maxDeliveryAttempts := 5, backoffBaseMs := 2000 }

def noRows : Database :=
  { notifications := Table.empty, deliveries := Table.empty
    owned := Dispatch.Database.empty_owned }

def mailingJoint : Joint :=
  (run (jointStep hourlyConfig [.email]) (.start noRows) mailing).get (by decide +kernel)

theorem sends_to_address_mail :
    ∃ address, mailed.recipientRef = some address ∧
      send allServed sentAnyway (recipientFromDelivery mailed) mailed.channel =
        sentAnyway mailed.channel address := by
  have ran : run (jointStep hourlyConfig [.email]) (.start noRows) mailing = some mailingJoint :=
    (Option.some_get _).symm
  have underway : .sending mailed mailNotification 1 (recipientFromDelivery mailed) ∈
      mailingJoint.workers := by
    decide +kernel
  exact sends_to_address rfl ran underway allServed sentAnyway (by decide)

end Notifications.Addresses
