import ArmstrongBot.Webhooks.Replays
import ArmstrongBot.Library.JsMethods

/-! The payload normalizers, and what of a delivery can make its processing fail. -/

namespace Webhooks

open JsText JsJson JsNumber
open Calendar (Timestamp)

/-- A number of a JSON text; one that is too large for the finite numbers is read as infinite. -/
inductive ParsedNumber
  | finite (value : Number)
  | infinite (negative : Bool)

/-- What `JSON.parse` makes of a text. -/
inductive Parsed
  | null
  | bool (value : Bool)
  | num (value : ParsedNumber)
  | str (value : JsString)
  | arr (items : List Parsed)
  | obj (fields : List (JsString × Parsed))

abbrev ParsedFields := List (JsString × Parsed)

mutual

/-- What is left of a value in JSON: an infinite number becomes `null`. -/
def jsonOf : Parsed → Json
  | .null => .null
  | .bool value => .bool value
  | .num (.finite value) => .num value
  | .num (.infinite _) => .null
  | .str value => .str value
  | .arr items => .arr (jsonItems items)
  | .obj fields => .obj (jsonFields fields)

def jsonItems : List Parsed → List Json
  | [] => []
  | item :: items => jsonOf item :: jsonItems items

def jsonFields : ParsedFields → List (JsString × Json)
  | [] => []
  | (key, value) :: fields => (key, jsonOf value) :: jsonFields fields

end

/-! `new Date` of a number. -/

/-- The time values reach so far on either side of 1970. -/
def maxTime : Nat := 8640000000000000

def digitsValue (digits : List (Fin 10)) : Nat :=
  digits.foldl (fun total digit => 10 * total + digit.val) 0

def isWhole (value : Decimal) : Bool := decide ((value.digits.length : Int) ≤ value.exponent)

/-- The magnitude without its fraction. -/
def wholePart (value : Decimal) : Nat :=
  if isWhole value then
    digitsValue value.digits * 10 ^ (value.exponent - value.digits.length).toNat
  else digitsValue (value.digits.take value.exponent.toNat)

def isTime : ParsedNumber → Bool
  | .infinite _ => false
  | .finite .zero => true
  | .finite (.decimal value) =>
      decide (wholePart value < maxTime) || (decide (wholePart value = maxTime) && isWhole value)

/-- A `Date`, which may be invalid. -/
abbrev Date := Option Timestamp

def dateOfNumber (value : ParsedNumber) : Date :=
  if isTime value then
    match value with
    | .finite (.decimal decimal) =>
        some (if decimal.negative then -(wholePart decimal : Int) else wholePart decimal)
    | _ => some 0
  else none

/-! The normalizers. -/

/-- `JSON.parse` of a body as UTF-8, `new Date` of a text, the lower case of a text, the product of a
number and 1000, and whether the event log takes an event. -/
structure Platform where
  parse : Bytes → Option Parsed
  dateOfText : JsString → Date
  toLowerCase : JsString → JsString
  thousandfold : Number → ParsedNumber
  stores : IntegrationEvent → Bool

/-- What the normalizers make of a delivery. Its date may be invalid. -/
structure NormalizedEvent where
  type : JsString
  provider : WebhookProvider
  guildId : Option JsString
  deliveryId : Option JsString
  internalDeliveryId : JsString
  occurredAt : Date
  data : ParsedFields

def str (fields : ParsedFields) (key : String) : Option JsString :=
  match fields.lookup (js key) with
  | some (.str value) => some value
  | _ => none

def num (fields : ParsedFields) (key : String) : Option Number :=
  match fields.lookup (js key) with
  | some (.num (.finite value)) => some value
  | _ => none

def obj (source : ParsedFields) (key : String) : ParsedFields :=
  match source.lookup (js key) with
  | some (.obj fields) => fields
  | _ => []

def textOrNull (value : Option JsString) : Parsed := value.elim .null .str

def numberOrNull (value : Option Number) : Parsed := value.elim .null fun number => .num (.finite number)

def build (provider : WebhookProvider) (ctx : NormalizationContext) (deliveryId : Option JsString)
    (occurredAt : Date) (type : JsString) (data : List (String × Parsed)) : NormalizedEvent :=
  { type, provider, guildId := ctx.guildId, deliveryId, internalDeliveryId := ctx.internalDeliveryId
    occurredAt, data := data.map fun field => (js field.1, field.2) }

section

variable (platform : Platform) (ctx : NormalizationContext) (now : Timestamp)

def parseBody : Option ParsedFields :=
  match platform.parse ctx.rawBody with
  | some (.obj fields) => some fields
  | _ => none

def commitCount (body : ParsedFields) : Nat :=
  match body.lookup (js "commits") with
  | some (.arr commits) => commits.length
  | _ => 0

def githubEvent (event : JsString) (body : ParsedFields) : Option NormalizedEvent :=
  let deliveryId := header ctx.headers (js "x-github-delivery")
  let repo := textOrNull (str (obj body "repository") "full_name")
  if event = js "push" then
    some (build .github ctx deliveryId (some now) (js "github.push")
      [("repo", repo), ("ref", textOrNull (str body "ref")),
        ("before", textOrNull (str body "before")), ("after", textOrNull (str body "after")),
        ("commitCount", .num (.finite (.ofNat (commitCount body)))),
        ("pusher", textOrNull (str (obj body "pusher") "name"))])
  else if event = js "pull_request" then
    some (build .github ctx deliveryId (some now) (js "github.pull_request")
      [("action", textOrNull (str body "action")), ("number", numberOrNull (num body "number")),
        ("title", textOrNull (str (obj body "pull_request") "title")), ("repo", repo)])
  else if event = js "workflow_run" then
    let run := obj body "workflow_run"
    some (build .github ctx deliveryId (some now) (js "github.workflow_run")
      [("name", textOrNull (str run "name")), ("status", textOrNull (str run "status")),
        ("conclusion", textOrNull (str run "conclusion")), ("repo", repo)])
  else none

def githubNormalize : Option NormalizedEvent :=
  match header ctx.headers (js "x-github-event") with
  | none => none
  | some event =>
      if event = [] ∨ event = js "ping" then none
      else (parseBody platform ctx).bind (githubEvent ctx now event)

def paymentSucceeded : JsString := js "payment_intent.succeeded"

def subscriptionUpdated : JsString := js "customer.subscription.updated"

def stripeDate (body : ParsedFields) : Date :=
  match num body "created" with
  | some created => dateOfNumber (platform.thousandfold created)
  | none => some now

def stripeEvent (type : JsString) (body : ParsedFields) : Option NormalizedEvent :=
  let deliveryId := str body "id"
  let occurredAt := stripeDate platform now body
  let object := obj (obj body "data") "object"
  if type = paymentSucceeded then
    some (build .stripe ctx deliveryId occurredAt (js "stripe.payment.succeeded")
      [("objectId", textOrNull (str object "id")), ("amount", numberOrNull (num object "amount")),
        ("currency", textOrNull (str object "currency"))])
  else if type = subscriptionUpdated then
    some (build .stripe ctx deliveryId occurredAt (js "stripe.subscription.updated")
      [("subscriptionId", textOrNull (str object "id")),
        ("status", textOrNull (str object "status"))])
  else none

def stripeNormalize : Option NormalizedEvent :=
  (parseBody platform ctx).bind fun body =>
    match str body "type" with
    | none => none
    | some type => if type = [] then none else stripeEvent platform ctx now type body

/-- The delivery id of the providers that have no header of their own for it. -/
def bodyDeliveryId (body : ParsedFields) : Option JsString :=
  (str body "id").or (header ctx.headers (js "x-delivery-id"))

def fivemEvent (event : JsString) (body : ParsedFields) : Option NormalizedEvent :=
  let deliveryId := bodyDeliveryId ctx body
  if event = js "player.join" then
    let player := obj body "player"
    some (build .fivem ctx deliveryId (some now) (js "fivem.player.join")
      [("playerId", textOrNull (str player "id")), ("name", textOrNull (str player "name"))])
  else if event = js "server.crash" then
    let server := obj body "server"
    some (build .fivem ctx deliveryId (some now) (js "fivem.server.crash")
      [("reason", textOrNull (str server "reason"))])
  else none

def fivemNormalize : Option NormalizedEvent :=
  (parseBody platform ctx).bind fun body =>
    match str body "event" with
    | none => none
    | some event => if event = [] then none else fivemEvent ctx now event body

def isTypeUnit (code : CodeUnit) : Bool :=
  isLower code || isDigit code || code == unit 46 || code == unit 95 || code == unit 45

def sanitizeType (raw : Option JsString) : JsString :=
  let cleaned := (platform.toLowerCase (raw.getD (js "event"))).filter isTypeUnit
  if cleaned = [] then js "event" else cleaned

def resolveData (body : ParsedFields) : ParsedFields :=
  match body.lookup (js "data") with
  | some (.obj data) => data
  | _ => body

def resolveOccurredAt (body : ParsedFields) : Date :=
  match body.lookup (js "timestamp") with
  | some (.str timestamp) => (platform.dateOfText timestamp).or (some now)
  | some (.num timestamp) => (dateOfNumber timestamp).or (some now)
  | _ => some now

def customType (body : ParsedFields) : JsString :=
  js "custom." ++ sanitizeType platform (str body "type")

def customNormalize : Option NormalizedEvent :=
  (parseBody platform ctx).map fun body =>
    { type := customType platform body, provider := .custom, guildId := ctx.guildId
      deliveryId := bodyDeliveryId ctx body, internalDeliveryId := ctx.internalDeliveryId
      occurredAt := resolveOccurredAt platform now body, data := resolveData body }

def normalizers : WebhookProvider → Option NormalizedEvent
  | .github => githubNormalize platform ctx now
  | .stripe => stripeNormalize platform ctx now
  | .fivem => fivemNormalize platform ctx now
  | .custom => customNormalize platform ctx now

end

/-! Publishing what they make, and processing a delivery. -/

inductive ProcessFailure
  | invalidTime
  | eventRefused
  | typeTooLong
  deriving DecidableEq

/-- `toISOString` throws for an invalid date. -/
def emitIntegrationEvent (event : NormalizedEvent) : Except ProcessFailure IntegrationEvent :=
  match event.occurredAt with
  | none => .error .invalidTime
  | some occurredAt =>
      .ok { type := event.type, provider := event.provider, guildId := event.guildId
            deliveryId := event.deliveryId, internalDeliveryId := event.internalDeliveryId
            occurredAt, data := .obj (jsonFields event.data) }

def contextOf (row : IngressDelivery) : NormalizationContext :=
  { rawBody := row.rawBody, headers := row.headers, guildId := row.guildId
    internalDeliveryId := row.id }

/-- The length of the column `event_type`. -/
def eventTypeLimit : Nat := 191

/-- `process`, as far as it depends on the delivery: it fails when the event cannot be written down,
when the event log refuses it, and when its type does not fit into the row. -/
def process (platform : Platform) (row : IngressDelivery) (now : Timestamp) :
    Except ProcessFailure (Option IntegrationEvent) :=
  match normalizers platform (contextOf row) now row.provider with
  | none => .ok none
  | some event =>
      match emitIntegrationEvent event with
      | .error failure => .error failure
      | .ok published =>
          if platform.stores published then
            if published.type.length ≤ eventTypeLimit then .ok (some published)
            else .error .typeTooLong
          else .error .eventRefused

/-- Whatever the normalizer makes of the delivery is an event with a type and a time, and the
delivery is processed, whenever that is tried. -/
def NoPoison (platform : Platform) (row : IngressDelivery) : Prop :=
  ∀ now, (∀ event ∈ normalizers platform (contextOf row) now row.provider,
      event.type ≠ [] ∧ event.occurredAt.isSome = true) ∧
    (process platform row now).isOk = true

/-- The creation time of a Stripe event that is mapped lies within the range of dates, the type of a
custom event fits into its column, and the event log takes the events. -/
structure Harmless (platform : Platform) (row : IngressDelivery) : Prop where
  created : row.provider = .stripe → ∀ body ∈ parseBody platform (contextOf row),
    ∀ type ∈ str body "type", type = paymentSucceeded ∨ type = subscriptionUpdated →
      ∀ created ∈ num body "created", isTime (platform.thousandfold created) = true
  typeFits : row.provider = .custom → ∀ body ∈ parseBody platform (contextOf row),
    (customType platform body).length ≤ eventTypeLimit
  stored : ∀ now, ∀ event ∈ normalizers platform (contextOf row) now row.provider,
    ∀ published, emitIntegrationEvent event = .ok published → platform.stores published = true

section

variable {platform : Platform} {ctx : NormalizationContext} {now : Timestamp}

/-- What `build` puts together has a type of the code's own, which fits into its column. -/
structure Built (event : NormalizedEvent) (occurredAt : Date) : Prop where
  named : event.type ≠ []
  fits : event.type.length ≤ eventTypeLimit
  dated : event.occurredAt = occurredAt

theorem built_build {provider : WebhookProvider} {deliveryId : Option JsString} {occurredAt : Date}
    {type : JsString} {data : List (String × Parsed)} (named : type ≠ [])
    (fits : type.length ≤ eventTypeLimit) :
    Built (build provider ctx deliveryId occurredAt type data) occurredAt :=
  ⟨named, fits, rfl⟩

theorem githubNormalize_built {event : NormalizedEvent}
    (isEvent : githubNormalize platform ctx now = some event) : Built event (some now) := by
  unfold githubNormalize at isEvent
  split at isEvent
  · cases isEvent
  · split at isEvent
    · cases isEvent
    · obtain ⟨body, -, made⟩ := Option.bind_eq_some_iff.mp isEvent
      unfold githubEvent at made
      split_ifs at made <;> obtain rfl := Option.some.inj made <;>
        exact built_build (by decide) (by decide)

theorem fivemNormalize_built {event : NormalizedEvent}
    (isEvent : fivemNormalize platform ctx now = some event) : Built event (some now) := by
  obtain ⟨body, -, made⟩ := Option.bind_eq_some_iff.mp isEvent
  split at made
  · cases made
  · split at made
    · cases made
    · unfold fivemEvent at made
      split_ifs at made <;> obtain rfl := Option.some.inj made <;>
        exact built_build (by decide) (by decide)

theorem stripeNormalize_built {event : NormalizedEvent}
    (isEvent : stripeNormalize platform ctx now = some event) :
    ∃ body ∈ parseBody platform ctx, ∃ type ∈ str body "type",
      (type = paymentSucceeded ∨ type = subscriptionUpdated) ∧
        Built event (stripeDate platform now body) := by
  obtain ⟨body, isBody, made⟩ := Option.bind_eq_some_iff.mp isEvent
  refine ⟨body, isBody, ?_⟩
  split at made
  · cases made
  · rename_i type isType
    refine ⟨type, isType, ?_⟩
    split at made
    · cases made
    · unfold stripeEvent at made
      split_ifs at made with payment subscription
      · obtain rfl := Option.some.inj made
        exact ⟨.inl payment, built_build (by decide) (by decide)⟩
      · obtain rfl := Option.some.inj made
        exact ⟨.inr subscription, built_build (by decide) (by decide)⟩

theorem stripeNormalize_some {body : ParsedFields} (isBody : parseBody platform ctx = some body)
    {type : JsString} (isType : str body "type" = some type)
    (mapped : type = paymentSucceeded ∨ type = subscriptionUpdated) :
    ∃ event, stripeNormalize platform ctx now = some event ∧
      event.occurredAt = stripeDate platform now body := by
  have named : type ≠ [] := by
    rcases mapped with rfl | rfl <;> decide
  simp only [stripeNormalize, isBody, Option.bind_some, isType, if_neg named, stripeEvent]
  rcases mapped with payment | subscription
  · rw [if_pos payment]
    exact ⟨_, rfl, rfl⟩
  · split
    · exact ⟨_, rfl, rfl⟩
    · exact ⟨_, rfl, rfl⟩

theorem dateOfNumber_isSome (value : ParsedNumber) :
    (dateOfNumber value).isSome = isTime value := by
  unfold dateOfNumber
  cases isTime value with
  | false => rfl
  | true =>
      rw [if_pos rfl]
      split <;> rfl

theorem stripeDate_isSome {body : ParsedFields} :
    (stripeDate platform now body).isSome = true ↔
      ∀ created ∈ num body "created", isTime (platform.thousandfold created) = true := by
  unfold stripeDate
  cases num body "created" with
  | none => simp
  | some created => simp [dateOfNumber_isSome]

theorem resolveOccurredAt_isSome (body : ParsedFields) :
    (resolveOccurredAt platform now body).isSome = true := by
  unfold resolveOccurredAt
  split <;> simp

theorem customType_ne_nil (body : ParsedFields) : customType platform body ≠ [] := by
  have front : js "custom." ≠ [] := by decide
  simp [customType, front]

theorem emit_isSome {event : NormalizedEvent} :
    event.occurredAt.isSome = true ↔
      ∃ published, emitIntegrationEvent event = .ok published := by
  unfold emitIntegrationEvent
  cases event.occurredAt <;> simp

theorem emit_error {event : NormalizedEvent} {failure : ProcessFailure}
    (refused : emitIntegrationEvent event = .error failure) : failure = .invalidTime := by
  unfold emitIntegrationEvent at refused
  split at refused
  · exact (Except.error.inj refused).symm
  · cases refused

theorem emit_type {event : NormalizedEvent} {published : IntegrationEvent}
    (emitted : emitIntegrationEvent event = .ok published) : published.type = event.type := by
  unfold emitIntegrationEvent at emitted
  split at emitted
  · cases emitted
  · cases emitted
    rfl

theorem customNormalize_some {body : ParsedFields} (isBody : parseBody platform ctx = some body) :
    ∃ event, customNormalize platform ctx now = some event ∧
      event.type = customType platform body := by
  rw [customNormalize, isBody]
  exact ⟨_, rfl, rfl⟩

/-- What it takes for a delivery to be processed. -/
theorem process_isOk {row : IngressDelivery} :
    (process platform row now).isOk = true ↔
      ∀ event ∈ normalizers platform (contextOf row) now row.provider,
        ∃ published, emitIntegrationEvent event = .ok published ∧
          platform.stores published = true ∧ event.type.length ≤ eventTypeLimit := by
  unfold process
  cases normalizers platform (contextOf row) now row.provider with
  | none => simp [Except.isOk, Except.toBool]
  | some event =>
      cases emitted : emitIntegrationEvent event with
      | error failure => simp [emitted, Except.isOk, Except.toBool]
      | ok published =>
          have type := emit_type emitted
          cases stored : platform.stores published with
          | false => simp [emitted, stored, Except.isOk, Except.toBool]
          | true =>
              by_cases fits : event.type.length ≤ eventTypeLimit <;>
                simp [emitted, stored, type, fits, Except.isOk, Except.toBool]

theorem Harmless.named_dated {row : IngressDelivery} (harmless : Harmless platform row)
    {event : NormalizedEvent}
    (isEvent : normalizers platform (contextOf row) now row.provider = some event) :
    event.type ≠ [] ∧ event.type.length ≤ eventTypeLimit ∧ event.occurredAt.isSome = true := by
  cases provider : row.provider with
  | github =>
      rw [provider] at isEvent
      have built := githubNormalize_built isEvent
      exact ⟨built.named, built.fits, by rw [built.dated]; rfl⟩
  | fivem =>
      rw [provider] at isEvent
      have built := fivemNormalize_built isEvent
      exact ⟨built.named, built.fits, by rw [built.dated]; rfl⟩
  | stripe =>
      rw [provider] at isEvent
      obtain ⟨body, isBody, type, isType, mapped, built⟩ := stripeNormalize_built isEvent
      have inRange := harmless.created provider body isBody type isType mapped
      exact ⟨built.named, built.fits, by rw [built.dated]; exact stripeDate_isSome.mpr inRange⟩
  | custom =>
      rw [provider] at isEvent
      obtain ⟨body, isBody, rfl⟩ := Option.map_eq_some_iff.mp isEvent
      exact ⟨customType_ne_nil body, harmless.typeFits provider body isBody,
        resolveOccurredAt_isSome body⟩

end

/-- A delivery is never poison exactly when it is harmless. -/
theorem no_poison_iff (platform : Platform) (row : IngressDelivery) :
    NoPoison platform row ↔ Harmless platform row := by
  constructor
  · intro noPoison
    refine ⟨?_, ?_, ?_⟩
    · intro provider body isBody type isType mapped
      obtain ⟨event, isEvent, dated⟩ := @stripeNormalize_some platform _ 0 _ isBody _ isType
        mapped
      have valid := (noPoison 0).1 event (by rw [provider]; exact isEvent)
      rw [dated] at valid
      exact stripeDate_isSome.mp valid.2
    · intro provider body isBody
      obtain ⟨event, isEvent, type⟩ := @customNormalize_some platform _ 0 _ isBody
      obtain ⟨_, _, _, fits⟩ :=
        process_isOk.mp (noPoison 0).2 event (by rw [provider]; exact isEvent)
      exact type ▸ fits
    · intro now event isEvent published emitted
      obtain ⟨other, otherEmitted, stored, -⟩ := process_isOk.mp (noPoison now).2 event isEvent
      rw [emitted] at otherEmitted
      exact Except.ok.inj otherEmitted ▸ stored
  · intro harmless now
    refine ⟨fun event isEvent => ?_, process_isOk.mpr fun event isEvent => ?_⟩
    · obtain ⟨named, -, dated⟩ := harmless.named_dated isEvent
      exact ⟨named, dated⟩
    · obtain ⟨-, fits, dated⟩ := harmless.named_dated isEvent
      obtain ⟨published, emitted⟩ := emit_isSome.mp dated
      exact ⟨published, emitted, harmless.stored now event isEvent published emitted, fits⟩

/-! The normalizers behind the worker of the queue. -/

/-- The services with these normalizers; an invalid date throws before anything is published. -/
def servicesOf (platform : Platform)
    (verify : WebhookProvider → VerificationContext → Timestamp → Except JsString Unit)
    (bodyHash : Bytes → JsString) : Services where
  verify := verify
  bodyHash := bodyHash
  normalize := fun provider ctx now =>
    match normalizers platform ctx now provider with
    | none => .ok none
    | some event =>
        match emitIntegrationEvent event with
        | .ok published => .ok (some published)
        | .error _ => .error (js "Invalid time value")

section

variable {platform : Platform}
  {verify : WebhookProvider → VerificationContext → Timestamp → Except JsString Unit}
  {bodyHash : Bytes → JsString}

/-- How a run of the worker goes that only its delivery can make fail. -/
def outcomeOf (reason : JsString) : Except ProcessFailure (Option IntegrationEvent) → Outcome
  | .ok _ | .error .invalidTime => .returns
  | .error .eventRefused => .throws .publish reason true
  | .error .typeTooLong => .throws .finish reason true

theorem processRow_returned (row : IngressDelivery) (reason : JsString) (now : Timestamp) :
    (processRow (servicesOf platform verify bodyHash)
        (outcomeOf reason (process platform row now)) now row).returned =
      (process platform row now).isOk := by
  have normalized : normalize (servicesOf platform verify bodyHash) row now =
      match normalizers platform (contextOf row) now row.provider with
      | none => .ok none
      | some event =>
          match emitIntegrationEvent event with
          | .ok published => .ok (some published)
          | .error _ => .error (js "Invalid time value") := rfl
  cases isEvent : normalizers platform (contextOf row) now row.provider with
  | none =>
      have processed : process platform row now = .ok none := by rw [process, isEvent]
      rw [processRow, processed, normalized, isEvent]
      rfl
  | some event =>
      rw [isEvent] at normalized
      dsimp only at normalized
      cases emitted : emitIntegrationEvent event with
      | error failure =>
          have processed : process platform row now = .error .invalidTime := by
            simp [process, isEvent, emitted, emit_error emitted]
          rw [emitted] at normalized
          rw [processRow, processed, normalized]
          rfl
      | ok published =>
          rw [emitted] at normalized
          by_cases stored : platform.stores published = true
          · by_cases fits : published.type.length ≤ eventTypeLimit
            · have processed : process platform row now = .ok (some published) := by
                simp [process, isEvent, emitted, stored, fits]
              rw [processRow, processed, normalized]
              rfl
            · have processed : process platform row now = .error .typeTooLong := by
                simp [process, isEvent, emitted, stored, fits]
              rw [processRow, processed, normalized]
              rfl
          · have processed : process platform row now = .error .eventRefused := by
              simp [process, isEvent, emitted, stored]
            rw [processRow, processed, normalized]
            rfl

/-- A stored Stripe delivery that was created out of the range of dates fails in every run of its
job. -/
theorem spoiled_of_distant {table : Table} {row : IngressDelivery} (member : row ∈ table.rows)
    (provider : row.provider = .stripe) {body : ParsedFields}
    (isBody : parseBody platform (contextOf row) = some body) {type : JsString}
    (isType : str body "type" = some type)
    (mapped : type = paymentSucceeded ∨ type = subscriptionUpdated) {created : Number}
    (isCreated : num body "created" = some created)
    (distant : isTime (platform.thousandfold created) = false) :
    Spoiled (servicesOf platform verify bodyHash) table row.id := by
  refine ⟨⟨row, member, rfl⟩, fun other otherMember same now => ?_⟩
  obtain rfl := eq_of_id otherMember member same
  obtain ⟨event, isEvent, dated⟩ := @stripeNormalize_some platform _ now _ isBody _ isType mapped
  have undated : event.occurredAt = none := by
    rw [dated, stripeDate, isCreated]
    exact if_neg (by simp [distant])
  have normalized : normalizers platform (contextOf other) now .stripe = some event := isEvent
  refine ⟨js "Invalid time value", ?_⟩
  rw [normalize, provider]
  change (match normalizers platform (contextOf other) now .stripe with
    | none => _
    | some event => _) = _
  rw [normalized]
  simp [emitIntegrationEvent, undated]

end

/-! A payment that is said to have been created in 10000000000000, in seconds. -/

def distantBody : Bytes :=
  "\x7b\"type\":\"payment_intent.succeeded\",\"created\":10000000000000\x7d".toUTF8.toList

def distantPayment : Parsed :=
  .obj [(js "type", .str paymentSucceeded), (js "created", .num (.finite (.ofNat 10000000000000)))]

/-- Times 1000 by moving the point, which is exact for whole numbers. -/
def movedPoint : Number → ParsedNumber
  | .zero => .finite .zero
  | .decimal value => .finite (.decimal { value with exponent := value.exponent + 3 })

def plainPlatform : Platform where
  parse := fun bytes => if bytes = distantBody then some distantPayment else none
  dateOfText := fun _ => none
  toLowerCase := toLowerCase
  thousandfold := movedPoint
  stores := fun _ => true

def distantDelivery : IngressDelivery :=
  newDelivery (js "d")
    { id := js "e", guildId := none, provider := .stripe, signingSecret := [], enabled := true
      deletedAt := none }
    { rawBody := distantBody, headers := [] }

theorem distant_creation_fails :
    ¬ NoPoison plainPlatform distantDelivery := by
  intro noPoison
  exact absurd (noPoison 0).2 (by decide +kernel)

end Webhooks
