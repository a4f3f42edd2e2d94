import ArmstrongBot.Cache.Instances
import ArmstrongBot.Library.StepMachine
import ArmstrongBot.Library.Table

/-! `DashboardSessionService` and `SessionStore` in any number of processes with one Redis and one
database. The calls advance from await to await. -/

namespace Sessions

open JsText StepMachine CacheService
open Calendar (Timestamp)

structure DashboardUser where
  discordId : JsString
  username : JsString
  globalName : Option JsString
  avatarHash : Option JsString
  isBotOwner : Bool
  deriving DecidableEq

structure ManageableGuild where
  guildId : JsString
  name : JsString
  iconHash : Option JsString
  botPresent : Bool
  hasManage : Bool
  deriving DecidableEq

/-- The cached copy; its dates are kept as texts and read back. -/
structure HotSession where
  user : DashboardUser
  guilds : List ManageableGuild
  createdAt : Timestamp
  expiresAt : Timestamp
  deriving DecidableEq

structure DashboardSessionData where
  sessionId : JsString
  user : DashboardUser
  guilds : List ManageableGuild
  createdAt : Timestamp
  expiresAt : Timestamp
  deriving DecidableEq

structure DashboardSessionRow where
  id : JsString
  discordId : JsString
  username : JsString
  expiresAt : Timestamp
  revokedAt : Option Timestamp
  createdAt : Timestamp
  deriving DecidableEq

structure SessionGuild where
  guildId : JsString
  name : JsString
  roleIds : List JsString
  isOwner : Bool
  canManage : Bool
  deriving DecidableEq

/-- What the store of the API keeps. -/
structure SessionData where
  userId : JsString
  username : JsString
  displayName : JsString
  isBotOwner : Bool
  guilds : List SessionGuild
  createdAt : JsString
  deriving DecidableEq

inductive Store
  | dashboard
  | api
  deriving DecidableEq

structure SessionId where
  store : Store
  id : JsString
  deriving DecidableEq

/-- `key` of either service. -/
def SessionId.key : SessionId → JsString
  | { store := .dashboard, id } => js "global:user:dash:sess:" ++ id
  | { store := .api, id } => js "global:user:session:" ++ id

inductive Cached
  | hot (session : HotSession)
  | data (session : SessionData)
  deriving DecidableEq

inductive Resolved
  | dashboard (session : DashboardSessionData)
  | api (session : SessionData)
  deriving DecidableEq

def hotSession (sessionId : JsString) : Cached → Resolved
  | .hot session =>
      .dashboard
        { sessionId, user := session.user, guilds := session.guilds
          createdAt := session.createdAt, expiresAt := session.expiresAt }
  | .data session => .api session

/-- What `resolve` makes of the durable row. -/
def coldSession (row : DashboardSessionRow) : Resolved :=
  .dashboard
    { sessionId := row.id
      user :=
        { discordId := row.discordId, username := row.username, globalName := none
          avatarHash := none, isBotOwner := false }
      guilds := [], createdAt := row.createdAt, expiresAt := row.expiresAt }

/-! The durable rows. -/

abbrev Rows := Table DashboardSessionRow.id

def findActive (rows : Rows) (id : JsString) (now : Timestamp) : Option DashboardSessionRow :=
  (rows.find id).filter fun row => row.revokedAt = none ∧ now < row.expiresAt

def DashboardSessionRow.revoke (row : DashboardSessionRow) (now : Timestamp) :
    DashboardSessionRow :=
  { row with revokedAt := some now }

theorem revoke_id (now : Timestamp) (row : DashboardSessionRow) : (row.revoke now).id = row.id := rfl

def revoke (rows : Rows) (id : JsString) (now : Timestamp) : Rows :=
  rows.update (fun row => row.id = id ∧ row.revokedAt = none) (fun row => row.revoke now)
    (revoke_id now)

/-! The calls. -/

/-- What a login hands to `create`. -/
inductive Login
  | dashboard (user : DashboardUser) (guilds : List ManageableGuild)
  | api (data : SessionData)

def Login.store : Login → Store
  | .dashboard _ _ => .dashboard
  | .api _ => .api

/-- The durations of the two configurations. -/
structure TtlSeconds where
  dashboard : Nat
  api : Nat

/-- A `destroy` waits for two commands at once; of the second one it is known whether it worked. -/
inductive Phase
  | inserted (session : HotSession)
  | storing (entry : CacheEntry Cached)
  | created
  | asking
  | answered (hit : Option (CacheEntry Cached))
  | reading
  | resolved (session : Option Resolved)
  | destroying (deleted : Bool) (revoked : Option Bool)
  | destroyed
  | failed
  deriving DecidableEq

/-- `late` tells whether a `destroy` of the session had returned when the call started. -/
structure Call where
  process : Nat
  session : SessionId
  late : Bool
  phase : Phase
  deriving DecidableEq

def Call.to (call : Call) (phase : Phase) : Call := { call with phase }

/-- The rows, the levels of the caches, and the sessions of which a `destroy` has returned. -/
structure State where
  rows : Rows
  cache : Levels Cached
  calls : List Call
  destroyed : List SessionId

def State.start : State :=
  { rows := .empty, cache := .empty, calls := [], destroyed := [] }

/-- The time, and whether the service that is awaited fails. -/
structure Input where
  now : Timestamp
  fails : Bool

inductive Action
  | create (process : Nat) (id : JsString) (login : Login) (now : Timestamp)
  | resolve (process : Nat) (session : SessionId) (now : Timestamp)
  | destroy (process : Nat) (session : SessionId)
  | advance (call : Nat) (input : Input)
  | landDelete (call : Nat) (fails : Bool)
  | landRevoke (call : Nat) (input : Input)
  | returns (call : Nat)
  | evict (level : Tiers.Level) (key : JsString)

/-- `cache.set` with `l2Only`: nothing is sent for an entry that is over at once. -/
def storing (value : Cached) (ttlSeconds : Nat) (now : Timestamp) : Phase :=
  let entry := entryOf value ttlSeconds now
  if entry.expiresAt ≤ now then .created else .storing entry

/-- The ids are made up by the database or drawn at random: none comes twice, or is named before
it is there. -/
def Fresh (state : State) (session : SessionId) : Prop :=
  ∀ call ∈ state.calls, call.session ≠ session

instance (state : State) (session : SessionId) : Decidable (Fresh state session) :=
  inferInstanceAs (Decidable (∀ _ ∈ _, _))

def begin (state : State) (process : Nat) (session : SessionId) (phase : Phase) : State :=
  { state with
    calls := state.calls ++
      [{ process, session, late := decide (session ∈ state.destroyed), phase }] }

section

variable (ttls : TtlSeconds)

/-- `create`: of the dashboard, from the insert of its row on. -/
def create (state : State) (process : Nat) (id : JsString) (login : Login) (now : Timestamp) :
    Option State :=
  match login with
  | .dashboard user guilds =>
      let expiresAt := now + ttls.dashboard * 1000
      (state.rows.insert
        { id, discordId := user.discordId, username := user.username, expiresAt
          revokedAt := none, createdAt := now }).map fun rows =>
        { begin state process { store := .dashboard, id }
            (.inserted { user, guilds, createdAt := now, expiresAt }) with rows }
  | .api data =>
      some (begin state process { store := .api, id } (storing (.data data) ttls.api now))

def resolve (state : State) (process : Nat) (session : SessionId) (now : Timestamp) : State :=
  let (hit, cache) := memoryGet state.cache process session.key now
  { begin state process session
      (match hit with
      | some entry => .resolved (some (hotSession session.id entry.value))
      | none => .asking) with cache }

/-- `destroy` as far as both commands are under way; that of the API has no row to revoke. -/
def destroy (state : State) (process : Nat) (session : SessionId) : State :=
  { begin state process session
      (.destroying false (match session.store with
        | .dashboard => none
        | .api => some true)) with
    cache := state.cache.delete (.own process, session.key) }

/-- What a call does next, with the caches after it. -/
def advance (state : State) (call : Call) (input : Input) : Option (Levels Cached × Phase) :=
  match call.phase with
  | .inserted session => some (state.cache, storing (.hot session) ttls.dashboard input.now)
  | .storing entry => some (redisSet state.cache call.session.key entry input.fails, .created)
  | .asking => some (state.cache, .answered (redisGet state.cache call.session.key input.fails))
  | .answered (some entry) =>
      -- the hit is promoted, although the entry was set for the second level only
      some (state.cache.set (.own call.process, call.session.key) entry,
        .resolved (some (hotSession call.session.id entry.value)))
  | .answered none =>
      match call.session.store with
      | .dashboard => some (state.cache, .reading)
      | .api => some (state.cache, .resolved none)
  | .reading =>
      if input.fails then some (state.cache, .failed)
      else some (state.cache,
        .resolved ((findActive state.rows call.session.id input.now).map coldSession))
  | _ => none

def step (state : State) : Action → Option State
  | .create process id login now =>
      if Fresh state { store := login.store, id } then create ttls state process id login now
      else none
  | .resolve process session now => some (resolve state process session now)
  | .destroy process session => some (destroy state process session)
  | .advance index input =>
      match state.calls[index]? with
      | some call =>
          (advance ttls state call input).map fun next =>
            { state with cache := next.1, calls := state.calls.set index (call.to next.2) }
      | none => none
  | .landDelete index fails =>
      match state.calls[index]? with
      | some call =>
          match call.phase with
          | .destroying false revoked => some { state with
              cache := redisDelete state.cache call.session.key fails
              calls := state.calls.set index (call.to (.destroying true revoked)) }
          | _ => none
      | none => none
  | .landRevoke index input =>
      match state.calls[index]? with
      | some call =>
          match call.phase with
          -- a failure rejects the call: it never returns, but its other command still lands
          | .destroying deleted none => some { state with
              rows := if input.fails then state.rows
                else revoke state.rows call.session.id input.now
              calls := state.calls.set index (call.to (.destroying deleted (some !input.fails))) }
          | _ => none
      | none => none
  | .returns index =>
      match state.calls[index]? with
      | some call =>
          match call.phase with
          | .destroying true (some true) => some { state with
              calls := state.calls.set index (call.to .destroyed)
              destroyed := state.destroyed ++ [call.session] }
          | _ => none
      | none => none
  | .evict level key => some { state with cache := state.cache.delete (level, key) }

end

/-- A `resolve` that starts once a `destroy` of its session has returned gives no session. -/
def Revoked (state : State) : Prop :=
  ∀ call ∈ state.calls, call.late = true → ∀ session, call.phase ≠ .resolved (some session)

/-! What a later `resolve` may still be given. -/

/-- The session is on its way into a cache. -/
def Phase.holds : Phase → Bool
  | .inserted _ | .storing _ | .answered (some _) => true
  | _ => false

structure Gone (session : SessionId) (state : State) : Prop where
  cached : state.cache.Lacks session.key
  held : ∀ call ∈ state.calls, call.session = session → call.phase.holds = false

/-- A `destroy` returns only when its session is in no cache, and no call is about to put it
into one. -/
def ReturnsGone (state : State) : Action → Prop
  | .returns index => ∀ call ∈ state.calls[index]?, Gone call.session state
  | _ => True

end Sessions
