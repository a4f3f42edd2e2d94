import ArmstrongBot.Library.Json
import ArmstrongBot.Library.Calendar
import Mathlib.Data.List.Nodup

/-! Inbound webhook deliveries: endpoints, requests, and the table of ingress deliveries. -/

namespace Webhooks

open JsText JsJson
open Calendar (Timestamp)

abbrev Bytes := List UInt8

inductive WebhookProvider
  | github
  | stripe
  | fivem
  | custom
  deriving DecidableEq

inductive DeliveryStatus
  | received
  | verified
  | rejected
  | processing
  | processed
  | failed
  | deadLettered
  deriving DecidableEq

structure WebhookEndpoint where
  id : JsString
  guildId : Option JsString
  provider : WebhookProvider
  signingSecret : JsString
  enabled : Bool
  deletedAt : Option Timestamp
  deriving DecidableEq

/-- The header map of a request, by lower-case names. -/
abbrev Headers := List (JsString × JsString)

def header (headers : Headers) (name : JsString) : Option JsString :=
  (headers.find? fun entry => entry.1 = name).map Prod.snd

structure Request where
  rawBody : Bytes
  headers : Headers
  deriving DecidableEq

def deliveryIdHeader : WebhookProvider → JsString
  | .github => js "x-github-delivery"
  | .stripe => js "stripe-signature"
  | _ => js "x-webhook-delivery"

def extractDeliveryId (provider : WebhookProvider) (headers : Headers) : Option JsString :=
  (header headers (deliveryIdHeader provider)).filter fun value => value ≠ []

structure IngressDelivery where
  id : JsString
  endpointId : JsString
  guildId : Option JsString
  provider : WebhookProvider
  externalId : Option JsString
  eventType : Option JsString
  status : DeliveryStatus
  rawBody : Bytes
  headers : Headers
  rejectReason : Option JsString
  processedAt : Option Timestamp
  deriving DecidableEq

structure IntegrationEvent where
  type : JsString
  provider : WebhookProvider
  guildId : Option JsString
  deliveryId : Option JsString
  internalDeliveryId : JsString
  occurredAt : Timestamp
  data : Json

/-- No two rows of an endpoint have one external id; a missing one is like no other. -/
def Separate (first second : IngressDelivery) : Prop :=
  first.id ≠ second.id ∧
    (first.endpointId = second.endpointId → first.externalId = second.externalId →
      first.externalId = none)

instance (first second : IngressDelivery) : Decidable (Separate first second) :=
  inferInstanceAs (Decidable (_ ∧ (_ → _ → _)))

/-- The table under its primary key and `@@unique([endpointId, externalId])`. -/
structure Table where
  rows : List IngressDelivery
  separate : rows.Pairwise Separate

def Table.empty : Table := { rows := [], separate := List.Pairwise.nil }

def externalIdLimit : Nat := 191

def newDelivery (id : JsString) (endpoint : WebhookEndpoint) (request : Request) :
    IngressDelivery :=
  { id, endpointId := endpoint.id, guildId := endpoint.guildId, provider := endpoint.provider
    externalId := extractDeliveryId endpoint.provider request.headers
    eventType := none, status := .received, rawBody := request.rawBody
    headers := request.headers, rejectReason := none, processedAt := none }

/-- `createIngress`, which fails where the insert breaks a constraint of the table. -/
def Table.insert (table : Table) (row : IngressDelivery) : Option Table :=
  if fits : (∀ other ∈ table.rows, Separate other row) ∧
      ∀ externalId ∈ row.externalId, externalId.length ≤ externalIdLimit then
    some
      { rows := table.rows ++ [row]
        separate := by
          apply List.pairwise_append.mpr
          refine ⟨table.separate, List.pairwise_singleton _ _, ?_⟩
          intro other member newest isNewest
          rw [List.mem_singleton.mp isNewest]
          exact fits.1 other member }
  else none

def Table.findIngressById (table : Table) (id : JsString) : Option IngressDelivery :=
  table.rows.find? fun row => row.id = id

def Table.findIngressByExternalId (table : Table) (endpointId externalId : JsString) :
    Option IngressDelivery :=
  table.rows.find? fun row => row.endpointId = endpointId ∧ row.externalId = some externalId

/-- The columns that `updateIngressStatus` writes; `undefined` leaves a column as it is. -/
structure StatusUpdate where
  status : DeliveryStatus
  eventType : Option JsString
  rejectReason : Option JsString
  processedAt : Option Timestamp

def StatusUpdate.to (status : DeliveryStatus) : StatusUpdate :=
  { status, eventType := none, rejectReason := none, processedAt := none }

def StatusUpdate.apply (update : StatusUpdate) (row : IngressDelivery) : IngressDelivery :=
  { row with
    status := update.status
    eventType := update.eventType.or row.eventType
    rejectReason := update.rejectReason.or row.rejectReason
    processedAt := update.processedAt.or row.processedAt }

def Table.updateIngressStatus (table : Table) (id : JsString) (update : StatusUpdate) : Table :=
  { rows := table.rows.map fun row => if row.id = id then update.apply row else row
    separate := by
      apply List.pairwise_map.mpr
      refine table.separate.imp ?_
      intro first second apart
      have same (row : IngressDelivery) :
          (if row.id = id then update.apply row else row).id = row.id ∧
          (if row.id = id then update.apply row else row).endpointId = row.endpointId ∧
          (if row.id = id then update.apply row else row).externalId = row.externalId := by
        split <;> exact ⟨rfl, rfl, rfl⟩
      simpa only [Separate, same first, same second] using apart }

/-! What the operations of the table keep. -/

/-- The columns that are written once. -/
structure SameReceipt (first second : IngressDelivery) : Prop where
  id : first.id = second.id
  endpointId : first.endpointId = second.endpointId
  provider : first.provider = second.provider
  externalId : first.externalId = second.externalId
  rawBody : first.rawBody = second.rawBody
  headers : first.headers = second.headers

theorem SameReceipt.refl (row : IngressDelivery) : SameReceipt row row :=
  ⟨rfl, rfl, rfl, rfl, rfl, rfl⟩

theorem SameReceipt.trans {first second third : IngressDelivery} (left : SameReceipt first second)
    (right : SameReceipt second third) : SameReceipt first third :=
  ⟨left.id.trans right.id, left.endpointId.trans right.endpointId,
    left.provider.trans right.provider, left.externalId.trans right.externalId,
    left.rawBody.trans right.rawBody, left.headers.trans right.headers⟩

theorem mem_updateIngressStatus {table : Table} {id : JsString} {update : StatusUpdate}
    {row : IngressDelivery} (member : row ∈ (table.updateIngressStatus id update).rows) :
    ∃ earlier ∈ table.rows, SameReceipt row earlier := by
  obtain ⟨earlier, earlierMember, rfl⟩ := List.mem_map.mp member
  refine ⟨earlier, earlierMember, ?_⟩
  split <;> exact ⟨rfl, rfl, rfl, rfl, rfl, rfl⟩

theorem mem_updateIngressStatus_of_mem {table : Table} (id : JsString) (update : StatusUpdate)
    {row : IngressDelivery} (member : row ∈ table.rows) :
    ∃ later ∈ (table.updateIngressStatus id update).rows, SameReceipt later row := by
  refine ⟨_, List.mem_map_of_mem member, ?_⟩
  split <;> exact ⟨rfl, rfl, rfl, rfl, rfl, rfl⟩

theorem insert_rows {table next : Table} {row : IngressDelivery}
    (inserted : table.insert row = some next) : next.rows = table.rows ++ [row] := by
  unfold Table.insert at inserted
  split at inserted
  · rw [← Option.some.inj inserted]
  · simp at inserted

theorem insert_separate {table next : Table} {row : IngressDelivery}
    (inserted : table.insert row = some next) : ∀ other ∈ table.rows, Separate other row := by
  unfold Table.insert at inserted
  split at inserted
  · rename_i fits
    exact fits.1
  · simp at inserted

theorem findIngressById_some {table : Table} {id : JsString} {row : IngressDelivery}
    (found : table.findIngressById id = some row) : row ∈ table.rows ∧ row.id = id := by
  refine ⟨List.mem_of_find?_eq_some found, ?_⟩
  simpa using List.find?_some found

theorem findIngressByExternalId_some {table : Table} {endpointId externalId : JsString}
    {row : IngressDelivery} (found : table.findIngressByExternalId endpointId externalId = some row) :
    row ∈ table.rows ∧ row.endpointId = endpointId ∧ row.externalId = some externalId := by
  refine ⟨List.mem_of_find?_eq_some found, ?_⟩
  simpa using List.find?_some found

theorem ids_nodup (table : Table) : (table.rows.map IngressDelivery.id).Nodup :=
  List.pairwise_map.mpr (table.separate.imp fun apart => apart.1)

theorem eq_of_id {table : Table} {first second : IngressDelivery} (firstMember : first ∈ table.rows)
    (secondMember : second ∈ table.rows) (same : first.id = second.id) : first = second :=
  List.inj_on_of_nodup_map (ids_nodup table) firstMember secondMember same

theorem findIngressById_of_mem {table : Table} {row : IngressDelivery} (member : row ∈ table.rows) :
    table.findIngressById row.id = some row := by
  cases found : table.findIngressById row.id with
  | none =>
      have missed := List.find?_eq_none.mp found row member
      simp at missed
  | some other =>
      obtain ⟨otherMember, same⟩ := findIngressById_some found
      exact congrArg some (eq_of_id otherMember member same)

end Webhooks
