import ArmstrongBot.Storage.Catalog
import ArmstrongBot.Library.StepMachine

/-! `StorageService`: calls of `store` and `delete` that advance from await to await, and the
lookups of objects. -/

namespace Storage

open JsText
open Calendar (Timestamp)

structure StoreParams where
  guildId : Option JsString
  namespace_ : StorageNamespace
  body : Bytes
  contentType : JsString
  filename : Option JsString
  ownerType : JsString
  ownerId : JsString
  immutable : Option Bool
  deriving DecidableEq

/-- A call of `store` or `delete`, by what it does next. -/
inductive Call
  | checkingQuota (params : StoreParams)
  | findingHash (params : StoreParams)
  | deduping (params : StoreParams) (id : JsString)
  | putting (params : StoreParams)
  | creating (params : StoreParams)
  | accounting (params : StoreParams) (id : JsString)
  | stored (params : StoreParams) (id : JsString)
  | finding (id : JsString) (guildId : Option (Option JsString))
  | deleting (object : StorageObject)
  | decrementing (object : StorageObject)
  | releasing (object : StorageObject)
  | deleted (object : StorageObject)
  | failed
  deriving DecidableEq

/-- The tables, and the driver as a map from keys to bytes. -/
structure State where
  catalog : Catalog
  usage : Record StorageUsage
  blobs : Record Bytes
  calls : List Call

def State.start : State :=
  { catalog := .empty, usage := .empty, blobs := .empty, calls := [] }

/-- The configuration: the hash, and the quota of each guild, where 0 stands for none. -/
structure StorageConfig where
  contentHash : ContentHash
  quotaBytes : JsString → Nat

/-- What a step may depend on: an id that the database makes up, the time, and whether what is
awaited fails. -/
structure Input where
  id : JsString
  now : Timestamp
  fails : Bool

section

variable (config : StorageConfig)

def hashOf (params : StoreParams) : JsString := config.contentHash.sha256Hex params.body

def keyOf (params : StoreParams) : JsString :=
  buildObjectKey params.guildId params.namespace_ (hashOf config params)

/-- The row of a fresh object. -/
def newObject (params : StoreParams) (id : JsString) : StorageObject :=
  { id, guildId := params.guildId, namespace_ := params.namespace_, key := keyOf config params
    contentHash := hashOf config params, size := params.body.length
    contentType := params.contentType, filename := params.filename
    ownerType := params.ownerType, ownerId := params.ownerId
    immutable := params.immutable.getD true, refCount := 1, deletedAt := none }

/-- `assertWithinQuota`. -/
def withinQuota (usage : Record StorageUsage) (guildId : JsString) (size : Nat) : Bool :=
  config.quotaBytes guildId = 0 || usedBytes usage guildId + size ≤ config.quotaBytes guildId

/-- `addUsage` for an object of a guild; the empty id is no guild. -/
def account (state : State) (guildId : Option JsString) (bytesDelta countDelta : Int) : State :=
  match guildId.filter fun id => id ≠ [] with
  | some id => { state with usage := addUsage state.usage id bytesDelta countDelta }
  | none => state

/-- The scope of `requireObject`: no guild at all, or the guild of the object. -/
def inScope (guildId : Option (Option JsString)) (object : StorageObject) : Bool :=
  match guildId with
  | none => true
  | some guildId => object.guildId = guildId

def requireObject (catalog : Catalog) (id : JsString) (guildId : Option (Option JsString)) :
    Option StorageObject :=
  (catalog.findById id).filter (inScope guildId)

/-- The next step of a call; what fails ends it. The events that a call emits after its last step
change nothing here. -/
def advance (state : State) (call : Call) (input : Input) : Option (State × Call) :=
  match call with
  | .stored _ _ | .deleted _ | .failed => none
  | call =>
      if input.fails then some (state, .failed)
      else
        match call with
        | .checkingQuota params =>
            match params.guildId with
            | none => some (state, .findingHash params)
            | some guildId =>
                if withinQuota config state.usage guildId params.body.length then
                  some (state, .findingHash params)
                else some (state, .failed)
        | .findingHash params =>
            match state.catalog.findByHash params.guildId params.namespace_
                (hashOf config params) with
            | some existing => some (state, .deduping params existing.id)
            | none => some (state, .putting params)
        | .deduping params id =>
            some ({ state with catalog := state.catalog.incrementRefCount id }, .stored params id)
        | .putting params =>
            some ({ state with blobs := state.blobs.set (keyOf config params) params.body },
              .creating params)
        | .creating params =>
            match state.catalog.create (newObject config params input.id) with
            | some catalog => some ({ state with catalog }, .accounting params input.id)
            | none => some (state, .failed)
        | .accounting params id =>
            some (account state params.guildId params.body.length 1, .stored params id)
        | .finding id guildId =>
            match requireObject state.catalog id guildId with
            | some object => some (state, .deleting object)
            | none => some (state, .failed)
        | .deleting object =>
            some ({ state with catalog := state.catalog.softDelete object.id input.now },
              .decrementing object)
        | .decrementing object =>
            some ({ state with catalog := state.catalog.decrementRefCount object.id },
              .releasing object)
        | .releasing object =>
            some (account state object.guildId (-object.size) (-1), .deleted object)
        | _ => none

inductive Request
  | store (params : StoreParams)
  | delete (id : JsString) (guildId : Option (Option JsString))

def Request.call : Request → Call
  | .store params => .checkingQuota params
  | .delete id guildId => .finding id guildId

inductive Action
  | begin (request : Request)
  | advance (call : Nat) (input : Input)

/-- Any number of calls, a step of one of them at a time. -/
def step (state : State) : Action → Option State
  | .begin request => some { state with calls := state.calls ++ [request.call] }
  | .advance index input =>
      match state.calls[index]? with
      | some call =>
          (advance config state call input).map fun next =>
            { next.1 with calls := state.calls.set index next.2 }
      | none => none

/-! The lookups. -/

def getBuffer (state : State) (id : JsString) : Option Bytes :=
  (requireObject state.catalog id none).bind fun object => state.blobs object.key

/-- `signDownloadUrl`, where `sign` is the driver's `signGetUrl`. -/
def signDownloadUrl {α : Type*} (sign : JsString → Option JsString → α) (state : State)
    (id : JsString) : Option α :=
  (requireObject state.catalog id none).map fun object => sign object.key object.filename

end

theorem requireObject_some {catalog : Catalog} {id : JsString}
    {guildId : Option (Option JsString)} {object : StorageObject}
    (required : requireObject catalog id guildId = some object) :
    object ∈ catalog.rows ∧ object.id = id ∧ object.isLive = true ∧
      inScope guildId object = true := by
  obtain ⟨found, admits⟩ := Option.filter_eq_some_iff.mp required
  obtain ⟨member, sameId, live⟩ := findById_some found
  exact ⟨member, sameId, live, admits⟩

/-! What a step of a call can do. -/

/-- The call has changed the catalog and not yet the usage. -/
def Call.owes : Call → Bool
  | .accounting _ _ | .decrementing _ | .releasing _ => true
  | _ => false

inductive Effect (config : StorageConfig) (state : State) (input : Input) :
    Call → State → Call → Prop
  | failed {call : Call} : input.fails = true ∨ call.owes = false →
      Effect config state input call state .failed
  | admitted {params : StoreParams} : input.fails = false →
      (∀ guildId, params.guildId = some guildId →
        withinQuota config state.usage guildId params.body.length = true) →
      Effect config state input (.checkingQuota params) state (.findingHash params)
  | found {params : StoreParams} {id : JsString} :
      Effect config state input (.findingHash params) state (.deduping params id)
  | missed {params : StoreParams} :
      Effect config state input (.findingHash params) state (.putting params)
  | put {params : StoreParams} :
      Effect config state input (.putting params)
        { state with blobs := state.blobs.set (keyOf config params) params.body } (.creating params)
  | required {id : JsString} {guildId : Option (Option JsString)} {object : StorageObject} :
      requireObject state.catalog id guildId = some object →
      Effect config state input (.finding id guildId) state (.deleting object)
  | deduped {params : StoreParams} {id : JsString} :
      Effect config state input (.deduping params id)
        { state with catalog := state.catalog.incrementRefCount id } (.stored params id)
  | created {params : StoreParams} {catalog : Catalog} : input.fails = false →
      state.catalog.create (newObject config params input.id) = some catalog →
      Effect config state input (.creating params) { state with catalog }
        (.accounting params input.id)
  | accounted {params : StoreParams} {id : JsString} : input.fails = false →
      Effect config state input (.accounting params id)
        (account state params.guildId params.body.length 1) (.stored params id)
  | softDeleted {object : StorageObject} : input.fails = false →
      Effect config state input (.deleting object)
        { state with catalog := state.catalog.softDelete object.id input.now }
        (.decrementing object)
  | decremented {object : StorageObject} : input.fails = false →
      Effect config state input (.decrementing object)
        { state with catalog := state.catalog.decrementRefCount object.id } (.releasing object)
  | released {object : StorageObject} : input.fails = false →
      Effect config state input (.releasing object)
        (account state object.guildId (-object.size) (-1)) (.deleted object)

theorem advance_effect {config : StorageConfig} {state : State} {call : Call} {input : Input}
    {next : State × Call} (taken : advance config state call input = some next) :
    Effect config state input call next.1 next.2 := by
  cases fails : input.fails with
  | true =>
      cases call <;> simp only [advance, fails, if_true, reduceCtorEq] at taken <;>
        obtain rfl := Option.some.inj taken <;> exact .failed (Or.inl fails)
  | false =>
      cases call <;>
        simp only [advance, fails, Bool.false_eq_true, if_false, reduceCtorEq] at taken
      case checkingQuota params =>
          split at taken
          · rename_i global
            obtain rfl := Option.some.inj taken
            exact .admitted fails fun guildId isGuild => by simp [global] at isGuild
          · rename_i guildId isGuild
            split at taken <;> obtain rfl := Option.some.inj taken
            · rename_i within
              refine .admitted fails fun other isOther => ?_
              rwa [← Option.some.inj (isGuild.symm.trans isOther)]
            · exact .failed (Or.inr rfl)
      case findingHash params =>
          split at taken <;> obtain rfl := Option.some.inj taken
          · exact .found
          · exact .missed
      case creating params =>
          split at taken <;> obtain rfl := Option.some.inj taken
          · rename_i created
            exact .created fails created
          · exact .failed (Or.inr rfl)
      case finding id guildId =>
          split at taken <;> obtain rfl := Option.some.inj taken
          · rename_i required
            exact .required required
          · exact .failed (Or.inr rfl)
      all_goals obtain rfl := Option.some.inj taken
      case putting => exact .put
      case deduping => exact .deduped
      case accounting => exact .accounted fails
      case deleting => exact .softDeleted fails
      case decrementing => exact .decremented fails
      case releasing => exact .released fails

theorem step_advance {config : StorageConfig} {state next : State} {index : Nat} {input : Input}
    (taken : step config state (.advance index input) = some next) :
    ∃ call middle later, state.calls[index]? = some call ∧
      advance config state call input = some (middle, later) ∧
      next = { middle with calls := state.calls.set index later } := by
  simp only [step] at taken
  split at taken
  · rename_i call current
    obtain ⟨⟨middle, later⟩, advanced, rfl⟩ := Option.map_eq_some_iff.mp taken
    exact ⟨call, middle, later, current, advanced, rfl⟩
  · simp at taken

/-! A configuration without quotas, whose hash is the same for all bodies, and calls of `store`. -/

def constantHash : ContentHash :=
  { sha256Hex := fun _ => List.replicate 64 (unit 48), length := fun _ => List.length_replicate }

def noQuota : StorageConfig := { contentHash := constantHash, quotaBytes := fun _ => 0 }

def transcript (guildId : Option JsString) (body : Bytes) : StoreParams :=
  { guildId, namespace_ := .transcripts, body, contentType := js "text/html", filename := none
    ownerType := js "ticket", ownerId := js "t", immutable := none }

end Storage
