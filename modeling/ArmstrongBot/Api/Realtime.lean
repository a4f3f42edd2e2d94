import ArmstrongBot.Permissions.StoredGrants

/-! Two ways into a guild: the guards of a REST request and the channels of `RealtimeGateway`. -/

namespace Api

open JsText
open Permissions

structure SessionGuild where
  guildId : JsString
  roleIds : List JsString
  isOwner : Bool
  deriving DecidableEq

structure SessionData where
  userId : JsString
  guilds : List SessionGuild
  deriving DecidableEq

inductive ActorType
  | user
  | service
  deriving DecidableEq

structure JwtClaims where
  sub : JsString
  type : ActorType
  scopes : List JsString
  guilds : List JsString
  deriving DecidableEq

inductive AuthMethod
  | session
  | jwt
  | apiKey
  deriving DecidableEq

/-- The sets of claims and guilds, as lists. -/
structure AuthenticatedActor where
  id : JsString
  type : ActorType
  method : AuthMethod
  claims : List JsString
  guildScope : List JsString
  deriving DecidableEq

/-- What a cookie resolves to, or what a token carries. -/
inductive Credentials
  | session (data : SessionData)
  | jwt (claims : JwtClaims)
  deriving DecidableEq

/-- The actor that both `RealtimeAuth` and `CompositeAuthGuard` build. -/
def authenticate : Credentials → AuthenticatedActor
  | .session data =>
      { id := data.userId, type := .user, method := .session, claims := []
        guildScope := data.guilds.map SessionGuild.guildId }
  | .jwt claims =>
      { id := claims.sub, type := claims.type, method := .jwt, claims := claims.scopes
        guildScope := claims.guilds }

/-- The session that `GuildScopeGuard` finds by the cookie of the request. -/
def Credentials.sessionData : Credentials → Option SessionData
  | .session data => some data
  | .jwt _ => none

inductive ApiError
  | notFound
  | forbidden
  | permission (failure : PermissionError)
  deriving DecidableEq

/-- The mirror of the user in the context of a request. -/
structure ApiUser where
  id : JsString
  guildId : JsString
  discordRoleIds : List JsString
  isGuildOwner : Bool
  deriving DecidableEq

/-- An actor with claims of its own: a service or a token. -/
def AuthenticatedActor.carriesClaims (actor : AuthenticatedActor) : Bool :=
  actor.type = .service || actor.method = .jwt

def enrichUser (data : Option SessionData) (actor : AuthenticatedActor) (guildId : JsString) :
    ApiUser :=
  let membership := data.bind fun session =>
    session.guilds.find? fun guild => guild.guildId = guildId
  { id := actor.id, guildId
    discordRoleIds := (membership.map SessionGuild.roleIds).getD []
    isGuildOwner := (membership.map SessionGuild.isOwner).getD false }

/-- `GuildScopeGuard` on a route with a guild. -/
def guildScopeGuard (data : Option SessionData) (actor : AuthenticatedActor) (guildId : JsString) :
    Except ApiError ApiUser :=
  if actor.carriesClaims then
    if actor.guildScope ≠ [] ∧ guildId ∉ actor.guildScope then .error .notFound
    else
      .ok (match actor.type with
        | .user => enrichUser data actor guildId
        | .service => { id := actor.id, guildId, discordRoleIds := [], isGuildOwner := false })
  else if guildId ∉ actor.guildScope then .error .notFound
  else .ok (enrichUser data actor guildId)

/-- `[...held].some(h => Claim.parse(h).covers(required))`. -/
def someCovers (required : Claim) : List JsString → Except PermissionError Bool
  | [] => .ok false
  | scope :: rest =>
      match Claim.parse scope with
      | .error failure => .error failure
      | .ok held => if held.covers required then .ok true else someCovers required rest

inductive RealtimeChannel
  | jobs
  | logs
  | presence
  deriving DecidableEq

def channelClaim : RealtimeChannel → JsString
  | .jobs => js "job.read"
  | .logs => js "logs.view"
  | .presence => js "presence.read"

section

variable (botOwnerIds : List JsString) (database : Database)

/-- `satisfies` of `ApiPermissionsGuard`. -/
def satisfies (actor : AuthenticatedActor) (user : ApiUser) (claim : JsString) :
    Except PermissionError Bool :=
  match Claim.parse claim with
  | .error failure => .error failure
  | .ok required =>
      if actor.carriesClaims then someCovers required actor.claims
      else if user.guildId = [] then .ok false
      else
        can botOwnerIds (loadSnapshot database user.guildId)
          { userId := user.id, guildId := user.guildId, discordRoleIds := user.discordRoleIds
            isGuildOwner := user.isGuildOwner } claim

/-- The claims of a route, one after the other. -/
def apiPermissionsGuard (actor : AuthenticatedActor) (user : ApiUser) :
    List JsString → Except ApiError Unit
  | [] => .ok ()
  | claim :: rest =>
      match satisfies botOwnerIds database actor user claim with
      | .error failure => .error (.permission failure)
      | .ok false => .error .forbidden
      | .ok true => apiPermissionsGuard actor user rest

/-- A request on a guild under both guards. -/
def restAccess (credentials : Credentials) (guildId : JsString) (claims : List JsString) :
    Except ApiError Unit :=
  let actor := authenticate credentials
  match guildScopeGuard credentials.sessionData actor guildId with
  | .error failure => .error failure
  | .ok user => apiPermissionsGuard botOwnerIds database actor user claims

def canJoin (actor : AuthenticatedActor) (guildId : JsString) (channel : RealtimeChannel) :
    Except PermissionError Bool :=
  if actor.guildScope ≠ [] ∧ guildId ∉ actor.guildScope then .ok false
  else
    let claim := channelClaim channel
    if actor.carriesClaims then .ok (claim ∈ actor.claims ∨ Permissions.star ∈ actor.claims)
    else
      can botOwnerIds (loadSnapshot database guildId)
        { userId := actor.id, guildId, discordRoleIds := [], isGuildOwner := false } claim

/-- Both let the same actors in. -/
def Agree (credentials : Credentials) (guildId : JsString) (channel : RealtimeChannel) : Prop :=
  canJoin botOwnerIds database (authenticate credentials) guildId channel = .ok true ↔
    restAccess botOwnerIds database credentials guildId [channelClaim channel] = .ok ()

structure Consistent (credentials : Credentials) (guildId : JsString) (channel : RealtimeChannel) :
    Prop where
  agree : Agree botOwnerIds database credentials guildId channel
  guildless : ∀ data, credentials = .session data → data.guilds = [] →
    canJoin botOwnerIds database (authenticate credentials) guildId channel ≠ .ok true

/-- The user is a bot owner, or the default group of the guild grants the claim. -/
def EveryoneHas (userId guildId : JsString) (required : Claim) : Prop :=
  userId ∈ botOwnerIds ∨ defaultDecision (loadSnapshot database guildId) required = .ok true

end

def channelRequired (channel : RealtimeChannel) : Claim :=
  { value := channelClaim channel, formed := by cases channel <;> decide +kernel }

theorem parse_channelClaim (channel : RealtimeChannel) :
    Claim.parse (channelClaim channel) = .ok (channelRequired channel) := by
  cases channel <;> rfl

def Credentials.scopes : Credentials → List JsString
  | .session _ => []
  | .jwt claims => claims.scopes

def Covered (claims : List JsString) (required : Claim) : Prop :=
  ∃ scope ∈ claims, ∃ held, Claim.parse scope = .ok held ∧ held.covers required = true

/-- A session has guilds, and is no owner of this one, unless it makes no difference; no wildcard
other than `*` decides on a token. -/
def SameRules (botOwnerIds : List JsString) (database : Database) (guildId : JsString)
    (required : Claim) : Credentials → Prop
  | .session data =>
      (data.guilds = [] → ¬ EveryoneHas botOwnerIds database data.userId guildId required) ∧
        ((enrichUser (some data) (authenticate (.session data)) guildId).isGuildOwner = true →
          EveryoneHas botOwnerIds database data.userId guildId required)
  | .jwt claims =>
      (claims.guilds ≠ [] ∧ guildId ∉ claims.guilds) ∨
        (Covered claims.scopes required →
          required.value ∈ claims.scopes ∨ Permissions.star ∈ claims.scopes)

variable {botOwnerIds : List JsString} {database : Database} {guildId : JsString}
  {channel : RealtimeChannel}

theorem someCovers_ok {required : Claim} {claims : List JsString}
    (formed : ∀ scope ∈ claims, IsClaim scope) :
    someCovers required claims = .ok true ↔ Covered claims required := by
  induction claims with
  | nil => simp [someCovers, Covered]
  | cons scope rest ih =>
      obtain ⟨held, parsed⟩ := formed scope List.mem_cons_self
      have later := ih fun other member => formed other (List.mem_cons_of_mem scope member)
      by_cases covers : held.covers required = true
      · simp only [someCovers, parsed, covers, if_true, true_iff]
        exact ⟨scope, List.mem_cons_self, held, parsed, covers⟩
      · simp only [someCovers, parsed, covers, Bool.false_eq_true, if_false, later]
        simp [Covered, parsed, covers]

theorem restAccess_ok {credentials : Credentials} {claim : JsString} :
    restAccess botOwnerIds database credentials guildId [claim] = .ok () ↔
      ∃ user, guildScopeGuard credentials.sessionData (authenticate credentials) guildId =
          .ok user ∧
        satisfies botOwnerIds database (authenticate credentials) user claim = .ok true := by
  cases isScoped : guildScopeGuard credentials.sessionData (authenticate credentials) guildId with
  | error failure => simp [restAccess, isScoped]
  | ok user =>
      simp only [restAccess, isScoped, apiPermissionsGuard, Except.ok.injEq, exists_eq_left']
      cases satisfied : satisfies botOwnerIds database (authenticate credentials) user claim with
      | error failure => simp
      | ok granted => cases granted <;> simp

theorem can_everyone {userId : JsString} {roleIds : List JsString} :
    can botOwnerIds (loadSnapshot database guildId)
        { userId, guildId, discordRoleIds := roleIds, isGuildOwner := false }
        (channelClaim channel) = .ok true ↔
      EveryoneHas botOwnerIds database userId guildId (channelRequired channel) := by
  by_cases botOwner : userId ∈ botOwnerIds
  · rw [EveryoneHas, can, explain, resolve, if_pos (by simp [getContext, botOwner])]
    simp [botOwner, Except.map]
  · rw [EveryoneHas, can_flat (flat_loadSnapshot database guildId) botOwner (by rfl)
      (parse_channelClaim channel)]
    simp [botOwner]

/-- Where the session lists the guild, both ask the core, and only REST asks for an owner. -/
theorem agree_listed {data : SessionData} (isGuild : guildId ≠ [])
    (listed : guildId ∈ data.guilds.map SessionGuild.guildId) :
    Agree botOwnerIds database (.session data) guildId channel ↔
      ((enrichUser (some data) (authenticate (.session data)) guildId).isGuildOwner = true →
        EveryoneHas botOwnerIds database data.userId guildId (channelRequired channel)) := by
  have carries : (authenticate (.session data)).carriesClaims = false := rfl
  have scope : (authenticate (.session data)).guildScope = data.guilds.map SessionGuild.guildId :=
    rfl
  have passes : guildScopeGuard (some data) (authenticate (.session data)) guildId =
      .ok (enrichUser (some data) (authenticate (.session data)) guildId) := by
    simp [guildScopeGuard, carries, scope, listed]
  have joins : canJoin botOwnerIds database (authenticate (.session data)) guildId channel =
      .ok true ↔
        EveryoneHas botOwnerIds database data.userId guildId (channelRequired channel) := by
    simp only [canJoin, carries, scope, listed, not_true_eq_false, and_false, if_false,
      Bool.false_eq_true]
    exact can_everyone
  rw [Agree, joins, restAccess_ok]
  simp only [Credentials.sessionData, passes, Except.ok.injEq, exists_eq_left', satisfies,
    parse_channelClaim, carries, Bool.false_eq_true, if_false]
  generalize isUser : enrichUser (some data) (authenticate (.session data)) guildId = user
  have sameGuild : user.guildId = guildId := by rw [← isUser]; rfl
  have sameId : user.id = data.userId := by rw [← isUser]; rfl
  rw [sameGuild, sameId, if_neg isGuild]
  cases owner : user.isGuildOwner with
  | true => simp [can_owner]
  | false => simp [can_everyone]

theorem restAccess_unlisted {data : SessionData} {claims : List JsString}
    (unlisted : guildId ∉ data.guilds.map SessionGuild.guildId) :
    restAccess botOwnerIds database (.session data) guildId claims = .error .notFound := by
  simp only [restAccess, Credentials.sessionData, guildScopeGuard, authenticate, unlisted]
  simp [AuthenticatedActor.carriesClaims]

theorem agree_session (isGuild : guildId ≠ []) (data : SessionData) :
    Agree botOwnerIds database (.session data) guildId channel ↔
      SameRules botOwnerIds database guildId (channelRequired channel) (.session data) := by
  by_cases listed : guildId ∈ data.guilds.map SessionGuild.guildId
  · have nonempty : data.guilds ≠ [] := by
      rintro none
      simp [none] at listed
    rw [agree_listed isGuild listed]
    simp [SameRules, nonempty]
  · have missing : data.guilds.find? (fun guild => guild.guildId = guildId) = none := by
      refine List.find?_eq_none.mpr fun guild member isListed => listed ?_
      exact List.mem_map.mpr ⟨guild, member, by simpa using isListed⟩
    have refused : restAccess botOwnerIds database (.session data) guildId
        [channelClaim channel] ≠ .ok () := by
      simp [restAccess_unlisted listed]
    have notOwner : (enrichUser (some data) (authenticate (.session data)) guildId).isGuildOwner =
        false := by
      simp [enrichUser, missing]
    rw [Agree, iff_false_right refused]
    by_cases none : data.guilds = []
    · have joins : canJoin botOwnerIds database (authenticate (.session data)) guildId channel =
          .ok true ↔
            EveryoneHas botOwnerIds database data.userId guildId (channelRequired channel) := by
        simp only [canJoin, authenticate, none, List.map_nil, ne_eq, not_true_eq_false, false_and,
          if_false, AuthenticatedActor.carriesClaims]
        exact can_everyone
      rw [joins]
      simp [SameRules, none, notOwner]
    · have outside : canJoin botOwnerIds database (authenticate (.session data)) guildId channel =
          .ok false := by
        rw [canJoin, if_pos ⟨by simpa [authenticate] using none, listed⟩]
      simp [outside, SameRules, none, notOwner]

theorem agree_jwt (claims : JwtClaims) (formed : ∀ scope ∈ claims.scopes, IsClaim scope) :
    Agree botOwnerIds database (.jwt claims) guildId channel ↔
      SameRules botOwnerIds database guildId (channelRequired channel) (.jwt claims) := by
  have carries : (authenticate (.jwt claims)).carriesClaims = true := by
    simp [authenticate, AuthenticatedActor.carriesClaims]
  have scope : (authenticate (.jwt claims)).guildScope = claims.guilds := rfl
  by_cases outside : claims.guilds ≠ [] ∧ guildId ∉ claims.guilds
  · have refused : canJoin botOwnerIds database (authenticate (.jwt claims)) guildId channel =
        .ok false := by
      rw [canJoin, scope, if_pos outside]
    have notFound : restAccess botOwnerIds database (.jwt claims) guildId [channelClaim channel] =
        .error .notFound := by
      rw [restAccess]
      simp only [guildScopeGuard, carries, if_true, scope, if_pos outside]
    simp [Agree, refused, notFound, SameRules, outside.1, outside.2]
  · have joins : canJoin botOwnerIds database (authenticate (.jwt claims)) guildId channel =
        .ok true ↔ channelClaim channel ∈ claims.scopes ∨ Permissions.star ∈ claims.scopes := by
      rw [canJoin, scope, if_neg outside]
      simp only [carries, if_true, Except.ok.injEq, decide_eq_true_eq]
      rfl
    have admits : restAccess botOwnerIds database (.jwt claims) guildId [channelClaim channel] =
        .ok () ↔ Covered claims.scopes (channelRequired channel) := by
      rw [restAccess_ok, guildScopeGuard, if_pos carries, scope, if_neg outside]
      simp only [Except.ok.injEq, exists_eq_left', satisfies, parse_channelClaim, carries, if_true]
      exact someCovers_ok formed
    have exactly : channelClaim channel ∈ claims.scopes ∨ Permissions.star ∈ claims.scopes →
        Covered claims.scopes (channelRequired channel) := by
      rintro (isHeld | isHeld)
      · exact ⟨_, isHeld, _, parse_channelClaim channel, by simp [Claim.covers]⟩
      · exact ⟨Permissions.star, isHeld, ⟨Permissions.star, by decide⟩, by rfl,
          by simp [Claim.covers]⟩
    rw [Agree, joins, admits, SameRules]
    constructor
    · intro same
      exact Or.inr same.mpr
    · rintro (isOutside | covered)
      · exact absurd isOutside outside
      · exact ⟨exactly, covered⟩

/-- REST and the realtime channels let the same actors in exactly where their rules coincide. -/
theorem consistent_iff {credentials : Credentials} (isGuild : guildId ≠ [])
    (formed : ∀ scope ∈ credentials.scopes, IsClaim scope) :
    Consistent botOwnerIds database credentials guildId channel ↔
      SameRules botOwnerIds database guildId (channelRequired channel) credentials := by
  have agree : Agree botOwnerIds database credentials guildId channel ↔
      SameRules botOwnerIds database guildId (channelRequired channel) credentials := by
    cases credentials with
    | session data => exact agree_session isGuild data
    | jwt claims => exact agree_jwt claims formed
  constructor
  · intro consistent
    exact agree.mp consistent.agree
  · intro sameRules
    refine ⟨agree.mpr sameRules, ?_⟩
    rintro data rfl none joins
    have unlisted : guildId ∉ data.guilds.map SessionGuild.guildId := by simp [none]
    have admitted := (agree.mpr sameRules).mp joins
    rw [restAccess_unlisted unlisted] at admitted
    simp at admitted

theorem consistent_token :
    Consistent [] mappedGuild
      (.jwt { sub := js "k", type := .service, scopes := [js "logs.view", js "tickets.*"]
              guilds := [js "g"] }) (js "g") .logs :=
  (consistent_iff (by decide) (by decide +kernel)).mpr
    (Or.inr fun _ => Or.inl (by decide +kernel))

/-- A wildcard that REST honours opens no channel. -/
theorem wildcard_token_refused :
    ¬ ∀ (botOwnerIds : List JsString) (database : Database) (credentials : Credentials)
      (guildId : JsString) (channel : RealtimeChannel), guildId ≠ [] →
      (∀ scope ∈ credentials.scopes, IsClaim scope) →
      Consistent botOwnerIds database credentials guildId channel := by
  intro all
  have consistent := all [] mappedGuild
    (.jwt { sub := js "k", type := .service, scopes := [js "logs.*"], guilds := [] }) (js "g")
    .logs (by decide) (by decide +kernel)
  exact absurd (consistent.agree.mpr (by decide +kernel)) (by decide +kernel)

end Api
