import ArmstrongBot.Storage.Service
import ArmstrongBot.Permissions.StoredGrants
import Mathlib.Data.Rat.Defs

/-! `StorageController`: a request on the catalog, from the guard to the response. -/

namespace Storage

open JsText
open Calendar (Timestamp)
open Permissions (PermissionActor PermissionError can loadSnapshot)

structure StoredObjectRef where
  id : JsString
  key : JsString
  namespace_ : StorageNamespace
  size : Nat
  contentHash : JsString
  deduped : Bool
  deriving DecidableEq

def toRef (object : StorageObject) : StoredObjectRef :=
  { id := object.id, key := object.key, namespace_ := object.namespace_, size := object.size
    contentHash := object.contentHash, deduped := false }

/-- What the schema of the listing makes of a query string. -/
structure ListQuery where
  namespace_ : Option StorageNamespace
  ownerType : Option JsString
  page : Nat
  pageSize : Nat
  deriving DecidableEq

structure ObjectPage where
  items : List StoredObjectRef
  total : Nat
  page : Nat
  pageSize : Nat
  deriving DecidableEq

def ListQuery.selects (query : ListQuery) (guildId : JsString) (row : StorageObject) : Bool :=
  row.isLive && decide (row.guildId = some guildId) &&
    (query.namespace_.all fun namespace_ => row.namespace_ = namespace_) &&
    ((query.ownerType.filter fun ownerType => ownerType ≠ []).all fun ownerType =>
      row.ownerType = ownerType)

/-- The rows of the table stand in the order of their creation. -/
def Catalog.list (catalog : Catalog) (guildId : JsString) (query : ListQuery) : ObjectPage :=
  let page := max 1 query.page
  let pageSize := min 100 (max 1 query.pageSize)
  let rows := catalog.rows.filter (query.selects guildId)
  { items := ((rows.reverse.drop ((page - 1) * pageSize)).take pageSize).map toRef
    total := rows.length, page, pageSize }

structure StorageUsageSummary where
  usedBytes : Int
  objectCount : Int
  quotaBytes : Nat
  deriving DecidableEq

structure SignedUrl where
  url : JsString
  method : JsString
  expiresAt : Timestamp
  deriving DecidableEq

/-- The query of a download; `expiry` is `Number(exp)` where that is finite. -/
structure DownloadQuery where
  key : Option JsString
  expiry : Option Rat
  sig : Option JsString
  filename : Option JsString
  contentType : Option JsString
  deriving DecidableEq

/-- What the controller rests on: the configuration, the driver's signatures, and the permissions. -/
structure Backend where
  config : StorageConfig
  signGetUrl : JsString → Option JsString → Timestamp → SignedUrl
  verifySignature : JsString → Rat → JsString → Timestamp → Bool
  botOwnerIds : List JsString
  permissions : Permissions.Database

inductive Endpoint
  | usage (guildId : JsString)
  | listObjects (guildId : JsString) (query : Option ListQuery)
  | signedUrl (id : JsString)
  | remove (id : JsString)
  | download (query : DownloadQuery)
  deriving DecidableEq

inductive Response
  | unauthorized
  | forbidden
  | permissionFailed (failure : PermissionError)
  | invalidQuery
  | objectNotFound (id : JsString)
  | usage (summary : StorageUsageSummary)
  | objects (page : ObjectPage)
  | signed (url : SignedUrl)
  | noContent
  | invalidSignature
  | linkExpired
  | missingFile
  | file (contentType : JsString) (disposition : Option JsString) (body : Bytes)
  deriving DecidableEq

/-- The response, the state that is left, and the object that was signed or deleted. -/
structure Handled where
  response : Response
  state : State
  touched : Option StorageObject

section

variable (backend : Backend)

def usageOf (state : State) (guildId : JsString) : StorageUsageSummary :=
  { usedBytes := usedBytes state.usage guildId, objectCount := objectCount state.usage guildId
    quotaBytes := backend.config.quotaBytes guildId }

def removed (state : State) (object : StorageObject) (now : Timestamp) : State :=
  account
    { state with catalog := (state.catalog.softDelete object.id now).decrementRefCount object.id }
    object.guildId (-object.size) (-1)

def serveSignedDownload (state : State) (query : DownloadQuery) (now : Timestamp) : Response :=
  match query.key.filter fun key => key ≠ [], query.sig.filter fun sig => sig ≠ [],
      query.expiry with
  | some key, some sig, some expiry =>
      if expiry * 1000 < now then .linkExpired
      else if backend.verifySignature key expiry sig now then
        match state.blobs key with
        | some body =>
            .file (query.contentType.getD (js "application/octet-stream"))
              ((query.filename.filter fun filename => filename ≠ []).map fun filename =>
                js "attachment; filename=\"" ++ filename.filter (· ≠ unit 34) ++ js "\"") body
        | none => .missingFile
      else .invalidSignature
  | _, _, _ => .invalidSignature

def Endpoint.claim : Endpoint → Option JsString
  | .usage _ | .listObjects _ _ | .signedUrl _ => some (js "storage.read")
  | .remove _ => some (js "storage.delete")
  | .download _ => none

/-- `RestPermissionGuard`: what it answers instead of the handler, if it does. -/
def restPermissionGuard (user : Option PermissionActor) (claim : Option JsString) :
    Option Response :=
  match claim, user with
  | none, _ => none
  | some _, none => some .unauthorized
  | some claim, some user =>
      match can backend.botOwnerIds (loadSnapshot backend.permissions user.guildId) user claim with
      | .ok true => none
      | .ok false => some .forbidden
      | .error failure => some (.permissionFailed failure)

def handler (state : State) (now : Timestamp) : Endpoint → Handled
  | .usage guildId => { response := .usage (usageOf backend state guildId), state, touched := none }
  | .listObjects guildId query =>
      match query with
      | some query =>
          { response := .objects (state.catalog.list guildId query), state, touched := none }
      | none => { response := .invalidQuery, state, touched := none }
  | .signedUrl id =>
      match requireObject state.catalog id none with
      | some object =>
          { response := .signed (backend.signGetUrl object.key object.filename now), state
            touched := some object }
      | none => { response := .objectNotFound id, state, touched := none }
  | .remove id =>
      match requireObject state.catalog id none with
      | some object =>
          { response := .noContent, state := removed state object now, touched := some object }
      | none => { response := .objectNotFound id, state, touched := none }
  | .download query =>
      { response := serveSignedDownload backend state query now, state, touched := none }

def handle (state : State) (user : Option PermissionActor) (now : Timestamp) (endpoint : Endpoint) :
    Handled :=
  match restPermissionGuard backend user endpoint.claim with
  | some response => { response, state, touched := none }
  | none => handler backend state now endpoint

end

/-- The handler deletes as a call of `delete` without a guild does. -/
theorem removed_steps (config : StorageConfig) (state : State) (id : JsString)
    (object : StorageObject) (found : requireObject state.catalog id none = some object)
    (input : Input) (succeeds : input.fails = false) :
    ((advance config state (.finding id none) input).bind fun first =>
      (advance config first.1 first.2 input).bind fun second =>
        (advance config second.1 second.2 input).bind fun third =>
          advance config third.1 third.2 input) =
      some (removed state object input.now, .deleted object) := by
  simp [advance, succeeds, found, removed, account]

end Storage
