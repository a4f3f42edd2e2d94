import ArmstrongBot.Webhooks.Inbound
import ArmstrongBot.Cache.Instances
import ArmstrongBot.Library.StepMachine
import ArmstrongBot.Library.Table

/-! `WebhookEndpointService` and the calls of `accept` from their lookup of the endpoint on, in any
number of processes with one Redis and one database. -/

namespace WebhookEndpoints

open JsText StepMachine CacheService
open Calendar (Timestamp)
open Webhooks (WebhookEndpoint WebhooksConfig Request Refusal refusal Services InboundAction
  inboundStep)

/-- Secrets stand as they decrypt. -/
structure WebhookEndpointRecord extends WebhookEndpoint where
  token : JsString
  label : JsString
  createdAt : Timestamp
  deriving DecidableEq

def WebhookEndpointRecord.active (record : WebhookEndpointRecord) : Bool :=
  record.enabled && record.deletedAt.isNone

abbrev Rows := Table fun row : WebhookEndpointRecord => row.id

def findById (rows : Rows) (id : JsString) : Option WebhookEndpointRecord :=
  (rows.find id).filter fun row => row.deletedAt = none

/-- The query of `findByToken`. -/
def findFirst (rows : Rows) (token : JsString) : Option WebhookEndpointRecord :=
  rows.rows.find? fun row => row.token = token ∧ row.deletedAt = none

inductive Change
  | update (label : Option JsString) (enabled : Option Bool)
  | rotate
  | softDelete
  deriving DecidableEq

def Change.opens : Change → Bool
  | .update _ (some enabled) => enabled
  | _ => false

/-- What `disable`, an update to the same end, and `softDelete` do. -/
def Change.closes : Change → Bool
  | .update _ (some enabled) => !enabled
  | .softDelete => true
  | _ => false

/-- What a step between two awaits may depend on: the time, whether the service that is awaited
fails, and the token and secret that a `rotate` draws. -/
structure Input where
  now : Timestamp
  fails : Bool
  token : JsString
  signingSecret : JsString

/-- The columns that are written; `undefined` leaves a column as it is. -/
def Change.apply (input : Input) : Change → WebhookEndpointRecord → WebhookEndpointRecord
  | .update label enabled, row =>
      { row with label := label.getD row.label, enabled := enabled.getD row.enabled }
  | .rotate, row => { row with token := input.token, signingSecret := input.signingSecret }
  | .softDelete, row => { row with deletedAt := some input.now }

theorem apply_id (change : Change) (input : Input) (row : WebhookEndpointRecord) :
    (change.apply input row).id = row.id := by
  cases change <;> rfl

def updateMany (rows : Rows) (id : JsString) (change : Change) (input : Input) : Rows :=
  rows.update (fun row => row.id = id ∧ row.deletedAt = none) (change.apply input)
    (apply_id change input)

/-- A record with the number of updates there had been when it was read. -/
structure Stamped where
  record : WebhookEndpointRecord
  read : Nat
  deriving DecidableEq

def cacheKey (token : JsString) : JsString := js "global:generic:webhooks:endpoint:" ++ token

def endpointCacheTtlSeconds : Nat := 300

/-- An update that hit a row, with the token it found there; the updates are numbered from one. -/
structure Update where
  id : JsString
  change : Change
  token : JsString
  stamp : Nat
  deriving DecidableEq

/-- A call waits for `requireOwned`, for its update, which may hit no row, for the command that
drops the old token, and for a second look at the row. -/
inductive MutationPhase
  | requiring
  | updating (oldToken : JsString)
  | updated (oldToken : JsString) (update : Option Update)
  | deleting (oldToken : JsString) (update : Option Update)
  | rereading (update : Update)
  | settled (update : Option Update)
  | returned (update : Update)
  | threw
  deriving DecidableEq

structure Mutation where
  process : Nat
  guildId : JsString
  id : JsString
  change : Change
  phase : MutationPhase
  deriving DecidableEq

def Mutation.to (mutation : Mutation) (phase : MutationPhase) : Mutation := { mutation with phase }

inductive AcceptPhase
  | asking
  | answered (hit : Option (CacheEntry Stamped))
  | reading
  | found (row : Stamped)
  | storing (entry : CacheEntry Stamped)
  | admitted (endpointId : JsString) (place : Nat)
  | refused (refusal : Refusal)
  | failed
  deriving DecidableEq

/-- A call of `accept`, with the updates whose calls had returned when it started. -/
structure Accept where
  process : Nat
  token : JsString
  request : Request
  after : List Update
  phase : AcceptPhase
  deriving DecidableEq

def Accept.to (accept : Accept) (phase : AcceptPhase) : Accept := { accept with phase }

/-- The rows, the tokens drawn, the levels of the caches, the calls of either kind, and the
deliveries of the calls that got past their lookup; with a log of the updates, and of those whose
calls have returned. -/
structure State where
  rows : Rows
  drawn : List JsString
  cache : Levels Stamped
  mutations : List Mutation
  accepts : List Accept
  inbound : Webhooks.State
  log : List Update
  returned : List Update

def State.start : State :=
  { rows := .empty, drawn := [], cache := .empty, mutations := [], accepts := []
    inbound := .start, log := [], returned := [] }

inductive Action
  | create (row : WebhookEndpointRecord)
  | mutate (process : Nat) (guildId id : JsString) (change : Change)
  | advanceMutation (mutation : Nat) (input : Input)
  | returns (mutation : Nat)
  | accept (process : Nat) (token : JsString) (request : Request) (now : Timestamp)
  | advance (accept : Nat) (input : Input)
  | inbound (action : InboundAction)
  | evict (level : Tiers.Level) (key : JsString)

/-- `createEndpoint`: the row is enabled, and its token is new. -/
def create (state : State) (row : WebhookEndpointRecord) : Option State :=
  if row.token ∈ state.drawn then none
  else
    (state.rows.insert { row with enabled := true, deletedAt := none }).map fun rows =>
      { state with rows, drawn := row.token :: state.drawn }

/-- The update takes effect; a token drawn for it is new. -/
def write (state : State) (mutation : Mutation) (oldToken : JsString) (input : Input) :
    Option (State × MutationPhase) :=
  if mutation.change = .rotate ∧ input.token ∈ state.drawn then none
  else
    match findById state.rows mutation.id with
    | none => some (state, .updated oldToken none)
    | some row =>
        let update : Update :=
          { id := mutation.id, change := mutation.change, token := row.token
            stamp := state.log.length + 1 }
        some
          ({ state with
            rows := updateMany state.rows mutation.id mutation.change input
            drawn := if mutation.change = .rotate then input.token :: state.drawn
              else state.drawn
            log := update :: state.log },
          .updated oldToken (some update))

/-- What the repository does once the old token is dropped. -/
def afterDelete (change : Change) : Option Update → MutationPhase
  | none => .settled none
  | some update => if change = .softDelete then .settled (some update) else .rereading update

def advanceMutation (state : State) (mutation : Mutation) (input : Input) :
    Option (State × MutationPhase) :=
  match mutation.phase with
  | .requiring =>
      match if input.fails then none else findById state.rows mutation.id with
      | some row =>
          if row.guildId = some mutation.guildId then some (state, .updating row.token)
          else some (state, .threw)
      | none => some (state, .threw)
  | .updating oldToken =>
      if input.fails then some (state, .threw) else write state mutation oldToken input
  | .updated oldToken update =>
      -- the token that `requireOwned` read, which need not be the one that the update found
      some ({ state with cache := state.cache.delete (.own mutation.process, cacheKey oldToken) },
        .deleting oldToken update)
  | .deleting oldToken update =>
      some ({ state with cache := redisDelete state.cache (cacheKey oldToken) input.fails },
        afterDelete mutation.change update)
  | .rereading update =>
      if input.fails then some (state, .threw)
      else some (state, .settled ((findById state.rows mutation.id).map fun _ => update))
  | .settled none => some (state, .threw)
  | _ => none

section

variable (config : WebhooksConfig)

/-- `resolveEndpoint` and what follows: the call goes on as one of the deliveries. -/
def decideOn (inbound : Webhooks.State) (request : Request)
    (found : Option WebhookEndpointRecord) (now : Timestamp) : Webhooks.State × AcceptPhase :=
  let endpoint := found.map WebhookEndpointRecord.toWebhookEndpoint
  match refusal config request endpoint, endpoint with
  | none, some endpoint =>
      (Webhooks.accept config inbound request (some endpoint) now,
        .admitted endpoint.id inbound.calls.length)
  | some refusal, _ => (inbound, .refused refusal)
  | none, none => (inbound, .refused .endpointDisabled)

/-- `accept` up to the answer of the first tier. -/
def begin (state : State) (process : Nat) (token : JsString) (request : Request)
    (now : Timestamp) : State :=
  let started (phase : AcceptPhase) : List Accept :=
    state.accepts ++ [{ process, token, request, after := state.returned, phase }]
  let size := request.rawBody.length
  let limit := config.maxInboundBodyBytes
  if limit < size then { state with accepts := started (.refused (.payloadTooLarge size limit)) }
  else
    match memoryGet state.cache process (cacheKey token) now with
    | (some entry, cache) =>
        let (inbound, phase) :=
          decideOn config state.inbound request (some entry.value.record) now
        { state with cache, inbound, accepts := started phase }
    | (none, cache) => { state with cache, accepts := started .asking }

/-- What a call of `accept` does next, with the caches and the deliveries after it. -/
def advance (state : State) (accept : Accept) (input : Input) :
    Option (Levels Stamped × Webhooks.State × AcceptPhase) :=
  let key := cacheKey accept.token
  match accept.phase with
  | .asking =>
      some (state.cache, state.inbound, .answered (redisGet state.cache key input.fails))
  | .answered (some entry) =>
      some (state.cache.set (.own accept.process, key) entry,
        decideOn config state.inbound accept.request (some entry.value.record) input.now)
  | .answered none => some (state.cache, state.inbound, .reading)
  | .reading =>
      if input.fails then some (state.cache, state.inbound, .failed)
      else
        match findFirst state.rows accept.token with
        | some record =>
            some (state.cache, state.inbound, .found { record, read := state.log.length })
        | none =>
            some (state.cache, decideOn config state.inbound accept.request none input.now)
  | .found row =>
      -- the row may have been changed, and its token dropped, since it was read
      let entry := entryOf row endpointCacheTtlSeconds input.now
      some (state.cache.set (.own accept.process, key) entry, state.inbound, .storing entry)
  | .storing entry =>
      some (redisSet state.cache key entry input.fails,
        decideOn config state.inbound accept.request (some entry.value.record) input.now)
  | _ => none

def step (services : Services) (state : State) : Action → Option State
  | .create row => create state row
  | .mutate process guildId id change =>
      some { state with
        mutations := state.mutations ++ [{ process, guildId, id, change, phase := .requiring }] }
  | .advanceMutation index input =>
      match state.mutations[index]? with
      | some mutation =>
          (advanceMutation state mutation input).map fun next =>
            { next.1 with mutations := state.mutations.set index (mutation.to next.2) }
      | none => none
  | .returns index =>
      match state.mutations[index]? with
      | some mutation =>
          match mutation.phase with
          | .settled (some update) => some { state with
              mutations := state.mutations.set index (mutation.to (.returned update))
              returned := update :: state.returned }
          | _ => none
      | none => none
  | .accept process token request now => some (begin config state process token request now)
  | .advance index input =>
      match state.accepts[index]? with
      | some accept =>
          (advance config state accept input).map fun next =>
            { state with
              cache := next.1
              inbound := next.2.1
              accepts := state.accepts.set index (accept.to next.2.2) }
      | none => none
  | .inbound (.accept _ _ _) => none
  | .inbound action =>
      (inboundStep services config state.inbound action).map fun inbound => { state with inbound }
  | .evict level key => some { state with cache := state.cache.delete (level, key) }

end

/-! Which calls are to be rejected. -/

/-- The endpoint was enabled by a later update. -/
def Reopened (log : List Update) (update : Update) : Prop :=
  ∃ later ∈ log, later.id = update.id ∧ later.change.opens = true ∧ update.stamp < later.stamp

/-- The update rules out a call with the token, or on the endpoint. -/
def Bars (log : List Update) (update : Update) (token endpointId : JsString) : Prop :=
  match update.change with
  | .rotate => token = update.token
  | change => change.closes = true ∧ endpointId = update.id ∧ ¬ Reopened log update

/-- The delivery has been accepted. -/
def accepted (state : State) (place : Nat) : Bool :=
  ((state.inbound.calls[place]?).bind fun call => call.phase.accepts).isSome

/-- No delivery is accepted against an update whose call had returned when the delivery came. -/
def RejectsRevoked (state : State) : Prop :=
  ∀ accept ∈ state.accepts, ∀ endpointId place, accept.phase = .admitted endpointId place →
    accepted state place = true → ∀ update ∈ accept.after,
      ¬ Bars state.log update accept.token endpointId

/-! What a later call may still be given. -/

/-- The record that a call is about to cache or to go by. -/
def AcceptPhase.carries : AcceptPhase → Option Stamped
  | .answered hit => hit.map CacheEntry.value
  | .found row => some row
  | .storing entry => some entry.value
  | _ => none

def held (state : State) : List Stamped :=
  (state.cache.entries.map fun entry => entry.2.value) ++
    state.accepts.filterMap fun accept => accept.phase.carries

/-- By the record the endpoint is active under a token that is gone, or as it was before the
update. -/
def Update.contradicts (update : Update) (row : Stamped) : Bool :=
  row.record.active &&
    match update.change with
    | .rotate => decide (row.record.token = update.token)
    | change => change.closes && decide (row.record.id = update.id) &&
        decide (row.read < update.stamp)

def MutationPhase.settles : MutationPhase → Option Update
  | .settled update => update
  | _ => none

/-- A change returns only when no cache and no call has a record that contradicts its update. -/
def ReturnsClean (state : State) : Action → Prop
  | .returns index => ∀ mutation ∈ state.mutations[index]?, ∀ update ∈ mutation.phase.settles,
      ∀ row ∈ held state, update.contradicts row = false
  | _ => True

end WebhookEndpoints
