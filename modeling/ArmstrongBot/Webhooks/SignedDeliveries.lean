import ArmstrongBot.Security.Encryption
import ArmstrongBot.Webhooks.GuildIsolation
import ArmstrongBot.Webhooks.Verification

/-! `WebhookSubscriptionService` over the encryption at rest: subscriptions are created, removed and
delivered to across restarts of the process, and a receiver checks what reaches it. -/

namespace Webhooks

open JsText JsJson StepMachine
open Calendar (Timestamp)
open Events (EventEnvelope)

/-- What `createSubscriptionSchema` leaves of the body of a request. -/
structure CreateSubscriptionInput where
  eventType : JsString
  targetUrl : JsString
  signingSecret : Option JsString
  filter : Option Fields

def https : JsString := js "https://"

/-- `createSubscriptionSchema`, for what its library takes for a URL. -/
def CreateSubscriptionInput.parses (isUrl : JsString → Bool) (dto : CreateSubscriptionInput) :
    Bool :=
  dto.eventType ≠ [] && isUrl dto.targetUrl && https.isPrefixOf dto.targetUrl &&
    dto.signingSecret.all fun secret => secret ≠ []

def secretBytes : Nat := 32

/-- The random bytes of a creation. -/
structure Drawn where
  secret : Bytes
  iv : Bytes

/-- What the service is set up with; `masterKey` is the text of the environment variable. -/
structure Setup where
  crypto : Encryption.Crypto
  hmac : Bytes → Bytes → Bytes
  isUrl : JsString → Bool
  envName : JsString
  masterKey : JsString
  config : OutboundConfig

/-- A creation that was accepted, with the secret of the subscription. -/
structure Given where
  id : JsString
  guildId : JsString
  dto : CreateSubscriptionInput
  secret : JsString

/-- The master key is that of the process, while one is running. -/
structure SigningState where
  masterKey : Option Bytes
  outbound : OutboundState
  given : List Given

def SigningState.start : SigningState :=
  { masterKey := none, outbound := .start { rows := [], distinct := List.nodup_nil }, given := [] }

inductive SigningAction
  | restart (drawn : Bytes)
  | create (id guildId : JsString) (dto : CreateSubscriptionInput) (drawn : Drawn)
  | remove (guildId id : JsString) (now : Timestamp)
  | dispatch (key : Nat) (event : EventEnvelope)
  | fanOut (key : Nat) (input : FanOut)
  | runJob (id : JsString) (input : Attempt) (exhausts : Bool)

namespace Setup

variable (setup : Setup)

/-- `createHmac` takes the bytes of the secret for its key. -/
def services (key : Bytes) : OutboundServices :=
  { decrypt := fun payload => (Encryption.decrypt setup.crypto key payload).toOption.getD []
    hmacHex := fun secret text => toHex (setup.hmac (Utf8.encode secret) (Utf8.encode text)) }

def generateSecret (drawn : Drawn) : JsString := Base64.encode drawn.secret

def signingSecret (dto : CreateSubscriptionInput) (drawn : Drawn) : JsString :=
  dto.signingSecret.getD (generateSecret drawn)

def input (key : Bytes) (guildId : JsString) (dto : CreateSubscriptionInput) (drawn : Drawn) :
    CreateSubscription :=
  { guildId, eventType := dto.eventType, targetUrl := dto.targetUrl, filter := dto.filter
    signingSecret := Encryption.encrypt setup.crypto key drawn.iv (signingSecret dto drawn) }

def create (state : SigningState) (key : Bytes) (id guildId : JsString)
    (dto : CreateSubscriptionInput) (drawn : Drawn) : Option SigningState :=
  if dto.parses setup.isUrl then
    if drawn.secret.length = secretBytes ∧ drawn.iv.length = Encryption.ivBytes then
      (createSubscription setup.config state.outbound id (setup.input key guildId dto drawn)).map
        fun outbound =>
          let isAllowed := setup.config.allowedOutboundEvents.contains dto.eventType
          { state with
            outbound
            given := state.given ++ if isAllowed then
              [{ id, guildId, dto, secret := signingSecret dto drawn }] else [] }
    else none
  else some state

/-- Whether `buildHeaders` of a run gets the secret of its subscription. -/
def opens (key : Bytes) (state : OutboundState) (delivery : OutboundDelivery) : Bool :=
  (state.subscriptions.findById delivery.subscriptionId).all fun subscription =>
    (Encryption.decrypt setup.crypto key subscription.signingSecret).isOk

/-- A secret that does not decrypt ends a run as a lookup that fails does. -/
def attempt (key : Bytes) (state : OutboundState) (id : JsString) (input : Attempt) : Attempt :=
  match state.outgoing.find? fun outgoing => outgoing.delivery.id = id with
  | some { delivery, .. } =>
      { input with
        reads := input.reads && (delivery.status = .processed || setup.opens key state delivery) }
  | none => input

/-- A restart loses the fan-outs that are under way. -/
def step (state : SigningState) : SigningAction → Option SigningState
  | .restart drawn =>
      match Encryption.onModuleInit setup.envName (some setup.masterKey) drawn with
      | .ok masterKey => some { state with
          masterKey := some masterKey, outbound := { state.outbound with dispatches := [] } }
      | .error _ => none
  | .create id guildId dto drawn =>
      state.masterKey.bind fun key => setup.create state key id guildId dto drawn
  | .remove guildId id now =>
      state.masterKey.map fun _ =>
        { state with outbound := removeSubscription state.outbound guildId id now }
  | .dispatch key event =>
      state.masterKey.bind fun _ =>
        (dispatchForEvent setup.config state.outbound key event).map fun outbound =>
          { state with outbound }
  | .fanOut key input =>
      state.masterKey.bind fun _ =>
        (Webhooks.fanOut state.outbound key input).map fun outbound => { state with outbound }
  | .runJob id input exhausts =>
      state.masterKey.bind fun key =>
        (Webhooks.runJob (setup.services key) setup.config state.outbound id
          (setup.attempt key state.outbound id input) exhausts).map fun outbound =>
            { state with outbound }

end Setup

/-! The receiver. -/

/-- A request as it arrives, in bytes. -/
structure Received where
  headers : Headers
  rawBody : Bytes

def Post.received (post : Post) : Received :=
  { headers := post.headers, rawBody := Utf8.encode post.body }

/-- The check of a receiver that knows the secret of its subscription. -/
def Received.verifies (hmac : Bytes → Bytes → Bytes) (secret : JsString) (received : Received) :
    Bool :=
  match header received.headers (js "x-webhook-timestamp"),
    header received.headers (js "x-webhook-signature-256") with
  | some timestamp, some signature =>
      signature = signaturePrefix ++
        toHex (hmac (Utf8.encode secret) (Utf8.encode (timestamp ++ js ".") ++ received.rawBody))
  | _, _ => false

/-- The event is one that the subscription was created for. -/
structure Given.Wants (given : Given) (event : EventEnvelope) : Prop where
  eventType : event.name = given.dto.eventType
  filtered : matchesFilter given.dto.filter (toPayload event.payload) = true

/-- The POST brings the event to where the subscription was created for, over HTTPS, and its
receiver can tell. -/
structure Given.Answers (setup : Setup) (given : Given) (event : EventEnvelope) (post : Post) :
    Prop where
  wants : given.Wants event
  targetUrl : post.targetUrl = given.dto.targetUrl
  secure : https.isPrefixOf post.targetUrl = true
  body : post.body = stringify (.obj (toPayload event.payload))
  verified : post.received.verifies setup.hmac given.secret = true

variable {setup : Setup}

theorem isAscii_timestamp (timestamp : Int) :
    Utf8.IsAscii (intText timestamp ++ js ".") := by
  have digits (value : Nat) : Utf8.IsAscii (natText value) := by
    intro code member
    have isDigit := natText_isDigit value code member
    simp only [JsText.isDigit, Bool.and_eq_true, decide_eq_true_eq] at isDigit
    omega
  intro code member
  rcases List.mem_append.mp member with inText | isDot
  · unfold intText at inText
    split at inText
    · rcases List.mem_cons.mp inText with rfl | inDigits
      · decide
      · exact digits _ code inDigits
    · exact digits _ code inText
  · rw [List.mem_singleton.mp isDot]
    decide

/-- Secrets are compared by their bytes, which the encryption at rest brings back. -/
theorem verifies_buildHeaders {key : Bytes} {subscription : Subscription} {secret : JsString}
    (opened : Encryption.decrypt setup.crypto key subscription.signingSecret =
      .ok (Utf8.decode (Utf8.encode secret)))
    (targetUrl deliveryId eventType body : JsString) (now : Timestamp) :
    ({ targetUrl, body
       headers := buildHeaders (setup.services key) subscription deliveryId eventType body now } :
      Post).received.verifies setup.hmac secret = true := by
  have timestamp : header (buildHeaders (setup.services key) subscription deliveryId eventType body
      now) (js "x-webhook-timestamp") = some (intText (now / 1000)) := rfl
  have signature : header (buildHeaders (setup.services key) subscription deliveryId eventType body
      now) (js "x-webhook-signature-256") = some (signaturePrefix ++
        (setup.services key).hmacHex ((setup.services key).decrypt subscription.signingSecret)
          (intText (now / 1000) ++ js "." ++ body)) := rfl
  have decrypted : (setup.services key).decrypt subscription.signingSecret =
      Utf8.decode (Utf8.encode secret) := by
    simp only [Setup.services, opened]
    rfl
  have signed : (setup.services key).hmacHex (Utf8.decode (Utf8.encode secret))
      (intText (now / 1000) ++ js "." ++ body) =
        toHex (setup.hmac (Utf8.encode secret)
          (Utf8.encode (intText (now / 1000) ++ js ".") ++ Utf8.encode body)) := by
    simp only [Setup.services, Utf8.encode_decode_encode,
      Utf8.encode_append_ascii (isAscii_timestamp _)]
  rw [decrypted, signed] at signature
  simp only [Received.verifies, Post.received, timestamp, signature, decide_true]

theorem deliver_post {services : OutboundServices} {delivery : OutboundDelivery}
    {found : Option Subscription} {input : Attempt} {post : Post}
    (posted : (deliver services delivery found input).post = some post) :
    ∃ subscription, found = some subscription ∧
      post =
        { targetUrl := subscription.targetUrl, body := stringify (.obj delivery.payload)
          headers := buildHeaders services subscription delivery.id delivery.eventType
            (stringify (.obj delivery.payload)) input.now } := by
  unfold deliver at posted
  split at posted
  · split at posted
    · cases posted
    · cases found with
      | none => cases posted
      | some subscription =>
          refine ⟨subscription, rfl, ?_⟩
          dsimp only at posted
          split at posted
          · exact (Option.some.inj posted).symm
          · split at posted <;> exact (Option.some.inj posted).symm
  · cases posted

/-! The invariant. -/

/-- The row of a creation; its secret opens under the master key of the environment. -/
structure Given.Stored (setup : Setup) (given : Given) (row : Subscription) : Prop where
  id : row.id = given.id
  guildId : row.guildId = given.guildId
  eventType : row.eventType = given.dto.eventType
  targetUrl : row.targetUrl = given.dto.targetUrl
  filter : row.filter = given.dto.filter
  secret : Encryption.decrypt setup.crypto (Base64.decode setup.masterKey) row.signingSecret =
    .ok (Utf8.decode (Utf8.encode given.secret))

structure Given.Plans (given : Given) (outgoing : Outgoing) : Prop where
  wants : given.Wants outgoing.event
  subscriptionId : outgoing.delivery.subscriptionId = given.id
  payload : outgoing.delivery.payload = toPayload outgoing.event.payload

/-- All that is stored and under way goes back to a creation. -/
structure Attributed (setup : Setup) (masterKey : Option Bytes) (outbound : OutboundState)
    (given : List Given) : Prop where
  keys : ∀ key ∈ masterKey, key = Base64.decode setup.masterKey ∧ key.length = Encryption.keyBytes
  ids : given.map Given.id = outbound.subscriptions.rows.map Subscription.id
  parsed : ∀ creation ∈ given, creation.dto.parses setup.isUrl = true
  dispatches : (outbound.dispatches.map Dispatch.key).Nodup
  rows : ∀ row ∈ outbound.subscriptions.rows, ∃ creation ∈ given, creation.Stored setup row
  remaining : ∀ dispatch ∈ outbound.dispatches, ∀ subscription ∈ dispatch.remaining,
    ∃ creation ∈ given, subscription.id = creation.id ∧ creation.Wants dispatch.event
  outgoing : ∀ outgoing ∈ outbound.outgoing, ∃ creation ∈ given, creation.Plans outgoing
  sent : ∀ entry ∈ outbound.sent, ∃ creation ∈ given, creation.id = entry.2.1.id ∧
    creation.guildId = entry.2.1.guildId ∧ creation.Answers setup entry.1 entry.2.2

theorem attributed_start : Attributed setup none SigningState.start.outbound [] := by
  constructor <;> simp [SigningState.start, OutboundState.start]

variable {masterKey : Option Bytes} {outbound : OutboundState} {given : List Given}

/-- The creation of a subscription is the only one under its id. -/
theorem Attributed.nodup (attributed : Attributed setup masterKey outbound given) :
    (given.map Given.id).Nodup := by
  rw [attributed.ids]
  exact outbound.subscriptions.distinct

theorem Attributed.creation_eq (attributed : Attributed setup masterKey outbound given)
    {first second : Given} (firstMember : first ∈ given) (secondMember : second ∈ given)
    (same : first.id = second.id) : first = second :=
  Filtered.eq_of_key attributed.nodup firstMember secondMember same

/-- A row that matches an event is one whose creation wants it. -/
theorem Attributed.wants (attributed : Attributed setup masterKey outbound given)
    {config : OutboundConfig} {event : EventEnvelope} {subscription : Subscription}
    (matched : subscription ∈ matching config outbound.subscriptions event) :
    ∃ creation ∈ given, subscription.id = creation.id ∧ creation.Wants event := by
  obtain ⟨creation, member, stored⟩ := attributed.rows subscription (mem_matching matched)
  refine ⟨creation, member, stored.id, ?_⟩
  unfold matching at matched
  split at matched
  · obtain ⟨enabled, filtered⟩ := List.mem_filter.mp matched
    obtain ⟨_, selected⟩ := List.mem_filter.mp enabled
    have isEvent : subscription.eventType = event.name := (of_decide_eq_true selected).1
    refine ⟨isEvent.symm.trans stored.eventType, ?_⟩
    rw [← stored.filter]
    exact filtered
  · cases matched

/-! Each step. -/

theorem softDelete_ids (table : SubscriptionTable) (id : JsString) (now : Timestamp) :
    (table.softDelete id now).rows.map Subscription.id = table.rows.map Subscription.id := by
  rw [SubscriptionTable.softDelete, List.map_map]
  apply List.map_congr_left
  intro row _
  simp only [Function.comp_apply]
  split <;> rfl

theorem Attributed.restart (attributed : Attributed setup masterKey outbound given)
    (configured : setup.masterKey ≠ []) {drawn key : Bytes}
    (started : Encryption.onModuleInit setup.envName (some setup.masterKey) drawn = .ok key) :
    Attributed setup (some key) { outbound with dispatches := [] } given := by
  refine { attributed with keys := ?_, dispatches := List.nodup_nil, remaining := ?_ }
  · intro other isOther
    obtain rfl := Option.some.inj isOther
    exact Encryption.onModuleInit_configured configured started
  · intro dispatch member
    cases member

theorem stored_input (documented : setup.crypto.Documented) {key : Bytes}
    (isKey : key = Base64.decode setup.masterKey ∧ key.length = Encryption.keyBytes)
    {dto : CreateSubscriptionInput} {drawn : Drawn} (isIv : drawn.iv.length = Encryption.ivBytes)
    (id guildId : JsString) :
    ({ id, guildId, dto, secret := Setup.signingSecret dto drawn } : Given).Stored setup
      ((setup.input key guildId dto drawn).row id) := by
  constructor <;> try rfl
  rw [← isKey.1]
  exact Encryption.decrypt_encrypt documented isKey.2 isIv _

theorem Attributed.create (attributed : Attributed setup masterKey outbound given)
    {row : CreateSubscription} {creation : Given} {table : SubscriptionTable}
    (made : outbound.subscriptions.create creation.id row = some table)
    (parses : creation.dto.parses setup.isUrl = true)
    (stored : creation.Stored setup (row.row creation.id)) :
    Attributed setup masterKey { outbound with subscriptions := table } (given ++ [creation]) := by
  have rows := (create_rows made).2
  have lift {property : Given → Prop} (before : ∃ other ∈ given, property other) :
      ∃ other ∈ given ++ [creation], property other := by
    obtain ⟨other, member, holds⟩ := before
    exact ⟨other, List.mem_append_left _ member, holds⟩
  constructor
  · exact attributed.keys
  · rw [List.map_append, attributed.ids, rows, List.map_append]
    rfl
  · intro other member
    rcases List.mem_append.mp member with before | isNew
    · exact attributed.parsed other before
    · rw [List.mem_singleton.mp isNew]
      exact parses
  · exact attributed.dispatches
  · intro other member
    rw [rows] at member
    rcases List.mem_append.mp member with before | isNew
    · exact lift (attributed.rows other before)
    · rw [List.mem_singleton.mp isNew]
      exact ⟨creation, List.mem_append_right _ (List.mem_singleton.mpr rfl), stored⟩
  · intro dispatch member subscription remains
    exact lift (attributed.remaining dispatch member subscription remains)
  · intro outgoing member
    exact lift (attributed.outgoing outgoing member)
  · intro entry member
    exact lift (attributed.sent entry member)

theorem Attributed.remove (attributed : Attributed setup masterKey outbound given)
    (guildId id : JsString) (now : Timestamp) :
    Attributed setup masterKey (removeSubscription outbound guildId id now) given := by
  unfold removeSubscription
  split
  · split
    · refine { attributed with ids := ?_, rows := ?_ }
      · rw [attributed.ids, softDelete_ids]
      · intro row member
        obtain ⟨before, beforeMember, rfl⟩ := List.mem_map.mp member
        obtain ⟨creation, isCreation, stored⟩ := attributed.rows before beforeMember
        refine ⟨creation, isCreation, ?_⟩
        split
        · exact ⟨stored.id, stored.guildId, stored.eventType, stored.targetUrl, stored.filter,
            stored.secret⟩
        · exact stored
    · exact attributed
  · exact attributed

theorem Attributed.dispatch (attributed : Attributed setup masterKey outbound given) {key : Nat}
    {event : EventEnvelope} {next : OutboundState}
    (taken : dispatchForEvent setup.config outbound key event = some next) :
    Attributed setup masterKey next given := by
  obtain ⟨fresh, isNext⟩ := Option.ite_none_left_eq_some.mp taken
  obtain rfl := Option.some.inj isNext
  refine { attributed with dispatches := ?_, remaining := ?_ }
  · rw [List.map_append, List.map_singleton]
    refine List.nodup_append.mpr ⟨attributed.dispatches, List.nodup_singleton _, ?_⟩
    rintro known member other isNew rfl
    rw [List.mem_singleton.mp isNew] at member
    exact fresh member
  · intro dispatch member subscription remains
    rcases List.mem_append.mp member with before | isNew
    · exact attributed.remaining dispatch before subscription remains
    · rw [List.mem_singleton.mp isNew] at remains ⊢
      exact attributed.wants remains

theorem Attributed.leave (attributed : Attributed setup masterKey outbound given) {key : Nat}
    {dispatch : Dispatch}
    (found : (outbound.dispatches.find? fun other => other.key = key) = some dispatch)
    {remaining : List Subscription} (part : remaining ⊆ dispatch.remaining) :
    Attributed setup masterKey
      { outbound with dispatches := Webhooks.leave outbound.dispatches key remaining } given := by
  have isKey : dispatch.key = key := by simpa using List.find?_some found
  refine { attributed with dispatches := ?_, remaining := ?_ }
  · simpa only [keys_leave] using attributed.dispatches
  · intro other member subscription remains
    obtain ⟨before, beforeMember, sameEvent, same | ⟨sameKey, isRemaining⟩⟩ := mem_leave member
    · rw [same] at remains ⊢
      exact attributed.remaining before beforeMember subscription remains
    · obtain rfl : before = dispatch := Filtered.eq_of_key attributed.dispatches beforeMember
        (List.mem_of_find?_eq_some found) (sameKey.trans isKey.symm)
      rw [isRemaining] at remains
      rw [sameEvent]
      exact attributed.remaining before beforeMember subscription (part remains)

theorem Attributed.fanOut (attributed : Attributed setup masterKey outbound given) {key : Nat}
    {input : FanOut} {next : OutboundState}
    (taken : Webhooks.fanOut outbound key input = some next) :
    Attributed setup masterKey next given := by
  unfold Webhooks.fanOut at taken
  split at taken
  · rename_i event subscription rest found
    have member := List.mem_of_find?_eq_some found
    split at taken
    · obtain ⟨_, isNext⟩ := Option.ite_none_left_eq_some.mp taken
      obtain rfl := Option.some.inj isNext
      have part : (if input.enqueues then rest else []) ⊆ subscription :: rest := by
        split
        · exact List.subset_cons_self _ _
        · exact List.nil_subset _
      refine { attributed.leave found part with outgoing := ?_ }
      intro outgoing outgoingMember
      rcases List.mem_append.mp outgoingMember with before | isNew
      · exact attributed.outgoing outgoing before
      · obtain ⟨creation, isCreation, sameId, wants⟩ :=
          attributed.remaining _ member subscription List.mem_cons_self
        rw [List.mem_singleton.mp isNew]
        exact ⟨creation, isCreation, wants, sameId, rfl⟩
    · obtain rfl := Option.some.inj taken
      exact attributed.leave found (List.nil_subset _)
  · cases taken

/-- A run of `deliver` leaves alone what it delivers. -/
theorem after_payload (config : OutboundConfig) (outgoing : Outgoing) (attemptsMade : Nat)
    (delivering : Delivering) (recorded exhausts : Bool) :
    (outgoing.after config attemptsMade delivering recorded exhausts).delivery.payload =
      outgoing.delivery.payload := by
  have updated (update : Option OutboundUpdate) :
      (update.elim outgoing.delivery fun update => update.apply outgoing.delivery).payload =
        outgoing.delivery.payload := by
    cases update <;> rfl
  have exhausted (delivery : OutboundDelivery) :
      (onExhausted delivery).payload = delivery.payload := by
    unfold onExhausted
    split <;> rfl
  simp only [Outgoing.after]
  split
  · exact (exhausted _).trans (updated _)
  · exact updated _

/-- What a run of `deliver` sends is for the creation of its subscription. -/
theorem Attributed.answers (attributed : Attributed setup (some key) outbound given)
    {outgoing : Outgoing} (member : outgoing ∈ outbound.outgoing) {input : Attempt} {post : Post}
    {subscription : Subscription}
    (found : outbound.subscriptions.findById outgoing.delivery.subscriptionId = some subscription)
    (posted : (deliver (setup.services key) outgoing.delivery
      (outbound.subscriptions.findById outgoing.delivery.subscriptionId) input).post = some post) :
    ∃ creation ∈ given, creation.id = subscription.id ∧
      creation.guildId = subscription.guildId ∧ creation.Answers setup outgoing.event post := by
  obtain ⟨other, isFound, rfl⟩ := deliver_post posted
  obtain rfl : subscription = other := Option.some.inj (found.symm.trans isFound)
  obtain ⟨rowMember, rowId⟩ := findById_some found
  obtain ⟨creation, isCreation, stored⟩ := attributed.rows subscription rowMember
  obtain ⟨planned, isPlanned, plans⟩ := attributed.outgoing outgoing member
  obtain rfl : planned = creation := attributed.creation_eq isPlanned isCreation
    (plans.subscriptionId.symm.trans (rowId.symm.trans stored.id))
  have opened := stored.secret
  rw [← (attributed.keys key rfl).1] at opened
  refine ⟨planned, isCreation, stored.id.symm, stored.guildId.symm, plans.wants, stored.targetUrl,
    ?_, ?_, verifies_buildHeaders opened ..⟩
  · have parses := attributed.parsed planned isCreation
    simp only [CreateSubscriptionInput.parses, Bool.and_eq_true] at parses
    rw [stored.targetUrl]
    exact parses.1.2
  · rw [plans.payload]

theorem Attributed.runJob {key : Bytes} (attributed : Attributed setup (some key) outbound given)
    {id : JsString} {input : Attempt} {exhausts : Bool} {next : OutboundState}
    (taken : Webhooks.runJob (setup.services key) setup.config outbound id input exhausts =
      some next) : Attributed setup (some key) next given := by
  unfold Webhooks.runJob at taken
  split at taken
  · rename_i event delivery attemptsMade found
    obtain rfl := Option.some.inj taken
    refine { attributed with outgoing := ?_, sent := ?_ }
    · intro later member
      obtain ⟨before, beforeMember, rfl | rfl⟩ := mem_settle member
      · exact attributed.outgoing later beforeMember
      · obtain ⟨creation, isCreation, plans⟩ := attributed.outgoing before beforeMember
        refine ⟨creation, isCreation, plans.wants, ?_, ?_⟩
        · rw [(after_same setup.config before attemptsMade _ _ _).2.2]
          exact plans.subscriptionId
        · rw [after_payload]
          exact plans.payload
    · intro entry member
      rcases List.mem_append.mp member with before | isNew
      · exact attributed.sent entry before
      · obtain ⟨subscription, isFound, isEntry⟩ :=
          Option.bind_eq_some_iff.mp (Option.mem_toList.mp isNew)
        obtain ⟨post, posted, rfl⟩ := Option.map_eq_some_iff.mp isEntry
        exact attributed.answers (List.mem_of_find?_eq_some found) isFound posted
  · cases taken

theorem attributed_step (documented : setup.crypto.Documented) (configured : setup.masterKey ≠ [])
    {state next : SigningState} {action : SigningAction}
    (attributed : Attributed setup state.masterKey state.outbound state.given)
    (taken : setup.step state action = some next) :
    Attributed setup next.masterKey next.outbound next.given := by
  cases action with
  | restart drawn =>
      simp only [Setup.step] at taken
      split at taken
      · rename_i key started
        obtain rfl := Option.some.inj taken
        exact attributed.restart configured started
      · cases taken
  | create id guildId dto drawn =>
      obtain ⟨key, isKey, creates⟩ := Option.bind_eq_some_iff.mp taken
      unfold Setup.create at creates
      split at creates
      · rename_i parses
        obtain ⟨⟨_, isIv⟩, made⟩ := Option.ite_none_right_eq_some.mp creates
        obtain ⟨outbound, inserted, rfl⟩ := Option.map_eq_some_iff.mp made
        unfold createSubscription at inserted
        split at inserted
        · rename_i allowed
          obtain ⟨table, isTable, rfl⟩ := Option.map_eq_some_iff.mp inserted
          have contained : setup.config.allowedOutboundEvents.contains dto.eventType = true :=
            List.contains_iff_mem.mpr allowed
          simp only [contained, if_true]
          exact attributed.create isTable parses
            (stored_input documented (attributed.keys key isKey) isIv id guildId)
        · rename_i refused
          obtain rfl := Option.some.inj inserted
          have missing : setup.config.allowedOutboundEvents.contains dto.eventType = false :=
            Bool.eq_false_iff.mpr fun contained => refused (List.contains_iff_mem.mp contained)
          simpa only [missing, Bool.false_eq_true, if_false, List.append_nil] using attributed
      · rw [← Option.some.inj creates]
        exact attributed
  | remove guildId id now =>
      obtain ⟨key, _, rfl⟩ := Option.map_eq_some_iff.mp taken
      exact attributed.remove guildId id now
  | dispatch key event =>
      obtain ⟨_, _, dispatches⟩ := Option.bind_eq_some_iff.mp taken
      obtain ⟨outbound, isNext, rfl⟩ := Option.map_eq_some_iff.mp dispatches
      exact attributed.dispatch isNext
  | fanOut key input =>
      obtain ⟨_, _, fansOut⟩ := Option.bind_eq_some_iff.mp taken
      obtain ⟨outbound, isNext, rfl⟩ := Option.map_eq_some_iff.mp fansOut
      exact attributed.fanOut isNext
  | runJob id input exhausts =>
      obtain ⟨key, isKey, runs⟩ := Option.bind_eq_some_iff.mp taken
      obtain ⟨outbound, isNext, rfl⟩ := Option.map_eq_some_iff.mp runs
      rw [isKey] at attributed ⊢
      exact attributed.runJob isNext

/-- Whatever is sent goes to where one accepted creation asked for that event, and its receiver
verifies it with the secret of that creation. -/
theorem sent_verified (documented : setup.crypto.Documented) (configured : setup.masterKey ≠ [])
    {actions : List SigningAction} {state : SigningState}
    (ran : run setup.step .start actions = some state) :
    (state.given.map Given.id).Nodup ∧
      ∀ entry ∈ state.outbound.sent, ∃ creation ∈ state.given, creation.id = entry.2.1.id ∧
        creation.guildId = entry.2.1.guildId ∧ creation.Answers setup entry.1 entry.2.2 := by
  have attributed : Attributed setup state.masterKey state.outbound state.given :=
    @invariant_run _ _ setup.step
      (fun state => Attributed setup state.masterKey state.outbound state.given)
      (fun _ _ _ holds taken => attributed_step documented configured holds taken) _ _ _ ran
      attributed_start
  exact ⟨attributed.nodup, attributed.sent⟩

def ticketSetup : Setup :=
  { crypto := Encryption.plainCrypto
    hmac := fun key text => List.replicate 32 (UInt8.ofNat (key.length + text.length))
    isUrl := fun _ => true
    envName := js "GHOST_MASTER_KEY"
    masterKey := Base64.encode Encryption.sampleKey
    config := outboundConfig }

def ticketActions : List SigningAction :=
  [.restart [],
    .create (js "s") (js "g")
      { eventType := js "tickets.created", targetUrl := js "https://t", filter := none
        signingSecret := none }
      { secret := List.replicate 32 1, iv := List.replicate 12 2 },
    .dispatch 0 ticketCreated, .fanOut 0 { id := js "d", creates := true, enqueues := true },
    .restart [],
    .runJob (js "d") { now := 1000, response := .status 200, reads := true, recorded := true } true]

def ticketState : SigningState := (run ticketSetup.step .start ticketActions).get (by decide +kernel)

theorem sent_verified_ticket : (ticketState.given.map Given.id).Nodup ∧
    ∀ entry ∈ ticketState.outbound.sent, ∃ creation ∈ ticketState.given,
      creation.id = entry.2.1.id ∧ creation.guildId = entry.2.1.guildId ∧
        creation.Answers ticketSetup entry.1 entry.2.2 :=
  sent_verified Encryption.plainCrypto_documented (by decide +kernel) (Option.some_get _).symm

example : ticketState.outbound.sent.length = 1 := by decide +kernel

end Webhooks
