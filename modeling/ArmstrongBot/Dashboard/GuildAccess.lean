import ArmstrongBot.Permissions.StoredGrants
import Mathlib.Data.Int.Bitwise

/-! `GuildAccessService` and `ClaimGuard` of the dashboard, from the login with Discord on. -/

namespace Dashboard

open JsText
open Permissions

/-! `BigInt` of a text. -/

def digitOf (base : Nat) (code : CodeUnit) : Option Nat :=
  let value :=
    if isDigit code then some (code.val - 48)
    else if isLower code then some (code.val - 87)
    else if isUpper code then some (code.val - 55)
    else none
  value.filter fun digit => digit < base

def digitsOf (base : Nat) (text : JsString) : Option Nat :=
  if text = [] then none
  else text.foldlM (fun number code => (digitOf base code).map (number * base + ·)) 0

/-- The bases that a literal is marked with. -/
def literalBase (literal : JsString) : Option Nat :=
  if literal.take 2 = js "0x" ∨ literal.take 2 = js "0X" then some 16
  else if literal.take 2 = js "0o" ∨ literal.take 2 = js "0O" then some 8
  else if literal.take 2 = js "0b" ∨ literal.take 2 = js "0B" then some 2
  else none

def bigInt (text : JsString) : Option Int :=
  let literal := trim text
  match literalBase literal with
  | some base => (digitsOf base (literal.drop 2)).map Int.ofNat
  | none =>
      if literal = [] then some 0
      else if literal.head? = some (unit 45) then
        (digitsOf 10 literal.tail).map fun number => -number
      else if literal.head? = some (unit 43) then (digitsOf 10 literal.tail).map Int.ofNat
      else (digitsOf 10 literal).map Int.ofNat

def parsePerms (raw : JsString) : Int := (bigInt raw).getD 0

/-- Bit 5, `MANAGE_GUILD`. -/
def hasManageBit (permissions : JsString) : Bool := (parsePerms permissions).testBit 5

/-! The login, and the session it leaves. -/

structure RawGuild where
  id : JsString
  owner : Bool
  permissions : JsString
  deriving DecidableEq

/-- What Discord answers at the login: the user, and the guilds of the user. -/
structure Login where
  userId : JsString
  guilds : List RawGuild
  deriving DecidableEq

structure DashboardUser where
  discordId : JsString
  isBotOwner : Bool
  deriving DecidableEq

structure ManageableGuild where
  guildId : JsString
  hasManage : Bool
  deriving DecidableEq

structure DashboardSession where
  user : DashboardUser
  guilds : List ManageableGuild
  deriving DecidableEq

def exchangeCode (botOwnerIds : List JsString) (login : Login) : DashboardSession :=
  let isOwner := decide (login.userId ∈ botOwnerIds)
  { user := { discordId := login.userId, isBotOwner := isOwner }
    guilds := login.guilds.map fun guild =>
      { guildId := guild.id
        hasManage := isOwner || guild.owner || hasManageBit guild.permissions } }

/-- What `resolve` makes of the durable row alone. -/
def coldSession (login : Login) : DashboardSession :=
  { user := { discordId := login.userId, isBotOwner := false }, guilds := [] }

/-- The sessions that a login leaves: hot, from the cache, or cold. -/
def IsSession (botOwnerIds : List JsString) (login : Login) (session : DashboardSession) : Prop :=
  session = exchangeCode botOwnerIds login ∨ session = coldSession login

def DashboardSession.hasManage (session : DashboardSession) (guildId : JsString) : Bool :=
  ((session.guilds.find? fun guild => guild.guildId = guildId).map
    ManageableGuild.hasManage).getD false

section

variable (botOwnerIds : List JsString) (database : Database)

/-- `hasClaim`, by what the sessions service resolves. -/
def hasClaim (resolved : Option DashboardSession) (guildId claim : JsString) :
    Except PermissionError Bool :=
  match resolved with
  | none => .ok false
  | some session =>
      if session.user.isBotOwner then .ok true
      else
        can botOwnerIds (loadSnapshot database guildId)
          { userId := session.user.discordId, guildId, discordRoleIds := []
            isGuildOwner := session.hasManage guildId } claim

inductive GuardError
  | forbidden (message : JsString)
  | permission (failure : PermissionError)
  deriving DecidableEq

/-- `ClaimGuard`: the claim of the route, the session attached to the request, the route's guild,
and what the session resolves to by now. -/
def canActivate (claim : Option JsString) (attached : Option DashboardSession)
    (guildId : Option JsString) (resolved : Option DashboardSession) : Except GuardError Bool :=
  match claim.filter fun text => text ≠ [] with
  | none => .ok true
  | some claim =>
      match attached, guildId.filter fun text => text ≠ [] with
      | some _, some guildId =>
          match hasClaim botOwnerIds database resolved guildId claim with
          | .error failure => .error (.permission failure)
          | .ok true => .ok true
          | .ok false => .error (.forbidden (js "Missing claim: " ++ claim))
      | _, _ => .error (.forbidden (js "Forbidden"))

/-- The decision of the permission core on a user as a non-owner with some roles. -/
def coreDecision (userId guildId : JsString) (roleIds : List JsString) (claim : JsString) :
    Except PermissionError Bool :=
  can botOwnerIds (loadSnapshot database guildId)
    { userId, guildId, discordRoleIds := roleIds, isGuildOwner := false } claim

end

/-- The claim that Manage Guild implies. -/
def baseline : JsString := js "dashboard.access"

def IsBaseline (claim : JsString) : Prop := Claim.parse claim = Claim.parse baseline

instance (claim : JsString) : Decidable (IsBaseline claim) := inferInstanceAs (Decidable (_ = _))

def ManagesGuild (login : Login) (guildId : JsString) : Prop :=
  ∃ guild ∈ login.guilds, guild.id = guildId ∧ hasManageBit guild.permissions = true

structure NonEscalating (botOwnerIds : List JsString) (database : Database) (login : Login)
    (session : DashboardSession) (guildId claim : JsString) (roleIds : List JsString) : Prop where
  sound : hasClaim botOwnerIds database (some session) guildId claim = .ok true →
    coreDecision botOwnerIds database login.userId guildId roleIds claim = .ok true ∨
      IsBaseline claim ∧ ManagesGuild login guildId
  complete : coreDecision botOwnerIds database login.userId guildId roleIds claim = .ok true →
    hasClaim botOwnerIds database (some session) guildId claim = .ok true
  denied : ¬ IsBaseline claim →
    coreDecision botOwnerIds database login.userId guildId roleIds claim = .ok false →
    hasClaim botOwnerIds database (some session) guildId claim ≠ .ok true
  guarded : claim ≠ [] → guildId ≠ [] →
    (canActivate botOwnerIds database (some claim) (some session) (some guildId) (some session) =
        .ok true ↔
      hasClaim botOwnerIds database (some session) guildId claim = .ok true)

variable {botOwnerIds : List JsString} {database : Database} {login : Login}
  {session : DashboardSession} {guildId claim : JsString} {roleIds : List JsString}

/-- The roles of a user make no difference: no mapping leads to a group. -/
theorem coreDecision_roles (notBotOwner : login.userId ∉ botOwnerIds) (others : List JsString) :
    coreDecision botOwnerIds database login.userId guildId roleIds claim =
      coreDecision botOwnerIds database login.userId guildId others claim := by
  have flat := flat_loadSnapshot database guildId
  unfold coreDecision
  cases parsed : Claim.parse claim with
  | ok required =>
      rw [can_flat flat notBotOwner rfl parsed, can_flat flat notBotOwner rfl parsed]
  | error failure =>
      simp only [can, explain, resolve, getContext, parsed, Bool.or_false, decide_eq_true_eq,
        if_neg notBotOwner]
      rfl

theorem hasClaim_session (database : Database) (guildId claim : JsString)
    (isSession : IsSession botOwnerIds login session)
    (notBotOwner : login.userId ∉ botOwnerIds) :
    hasClaim botOwnerIds database (some session) guildId claim =
      can botOwnerIds (loadSnapshot database guildId)
        { userId := login.userId, guildId, discordRoleIds := []
          isGuildOwner := session.hasManage guildId } claim := by
  have notOwner : session.user.isBotOwner = false := by
    rcases isSession with rfl | rfl
    · simpa [exchangeCode] using notBotOwner
    · rfl
  have sameUser : session.user.discordId = login.userId := by
    rcases isSession with rfl | rfl <;> rfl
  simp only [hasClaim, notOwner, sameUser, Bool.false_eq_true, if_false]

/-- A guild that the session lists with Manage Guild is one that the user manages. -/
theorem managesGuild_of_session (isSession : IsSession botOwnerIds login session)
    (notBotOwner : login.userId ∉ botOwnerIds)
    (notOwner : ∀ guild ∈ login.guilds, guild.id = guildId → guild.owner = false)
    (manages : session.hasManage guildId = true) : ManagesGuild login guildId := by
  rcases isSession with rfl | rfl
  · simp only [DashboardSession.hasManage] at manages
    cases found : (exchangeCode botOwnerIds login).guilds.find? fun guild =>
        guild.guildId = guildId with
    | none => simp [found] at manages
    | some listed =>
        have isListed := List.find?_some found
        obtain ⟨guild, member, rfl⟩ := List.mem_map.mp (List.mem_of_find?_eq_some found)
        simp only [decide_eq_true_eq] at isListed
        refine ⟨guild, member, isListed, ?_⟩
        simpa [found, notBotOwner, notOwner guild member isListed] using manages
  · simp [DashboardSession.hasManage, coldSession] at manages

theorem canActivate_iff (resolved : Option DashboardSession) (isClaim : claim ≠ [])
    (isGuild : guildId ≠ []) :
    canActivate botOwnerIds database (some claim) (some session) (some guildId) resolved =
        .ok true ↔
      hasClaim botOwnerIds database resolved guildId claim = .ok true := by
  simp only [canActivate, Option.filter_some, isClaim, isGuild, ne_eq, not_false_eq_true,
    decide_true, if_true]
  cases hasClaim botOwnerIds database resolved guildId claim with
  | error failure => simp
  | ok granted => cases granted <;> simp

/-- A user who owns neither the bot nor the guild gets no more than the core gives, apart from the
baseline, exactly when Manage Guild is not in play or makes no difference. -/
theorem nonEscalating_iff (isSession : IsSession botOwnerIds login session)
    (notBotOwner : login.userId ∉ botOwnerIds)
    (notOwner : ∀ guild ∈ login.guilds, guild.id = guildId → guild.owner = false) :
    NonEscalating botOwnerIds database login session guildId claim roleIds ↔
      session.hasManage guildId = false ∨ IsBaseline claim ∨
        coreDecision botOwnerIds database login.userId guildId roleIds claim = .ok true := by
  have granted := hasClaim_session database guildId claim isSession notBotOwner
  constructor
  · intro nonEscalating
    cases manages : session.hasManage guildId with
    | false => exact Or.inl rfl
    | true =>
        rw [manages, can_owner _ rfl _] at granted
        rcases nonEscalating.sound granted with core | ⟨isBaseline, _⟩
        · exact Or.inr (Or.inr core)
        · exact Or.inr (Or.inl isBaseline)
  · intro condition
    cases manages : session.hasManage guildId with
    | false =>
        have same : hasClaim botOwnerIds database (some session) guildId claim =
            coreDecision botOwnerIds database login.userId guildId roleIds claim := by
          rw [granted, manages, coreDecision_roles notBotOwner []]
          rfl
        refine ⟨fun isGranted => Or.inl (same.symm.trans isGranted), same.trans, ?_,
          fun isClaim isGuild => canActivate_iff _ isClaim isGuild⟩
        intro _ denied isGranted
        exact absurd ((same.trans denied).symm.trans isGranted) (by simp)
    | true =>
        rw [manages, can_owner _ rfl _] at granted
        have isManaged := managesGuild_of_session isSession notBotOwner notOwner manages
        have core : IsBaseline claim ∨
            coreDecision botOwnerIds database login.userId guildId roleIds claim = .ok true := by
          rcases condition with unmanaged | core
          · rw [manages] at unmanaged
            exact absurd unmanaged (by simp)
          · exact core
        refine ⟨fun _ => ?_, fun _ => granted, ?_,
          fun isClaim isGuild => canActivate_iff _ isClaim isGuild⟩
        · exact core.symm.imp id fun isBaseline => ⟨isBaseline, isManaged⟩
        · intro notBaseline denied
          rcases core with isBaseline | isCore
          · exact absurd isBaseline notBaseline
          · exact absurd (denied.symm.trans isCore) (by simp)

/-! A user with Manage Guild in a guild whose default group holds one claim. -/

def manager : Login :=
  { userId := js "7", guilds := [{ id := js "g", owner := false, permissions := js "32" }] }

theorem nonEscalating_ticket :
    NonEscalating [] mappedGuild manager (exchangeCode [] manager) (js "g") (js "tickets.create")
      [js "42"] :=
  (nonEscalating_iff (Or.inl rfl) (by decide) (by decide)).mpr
    (Or.inr (Or.inr (by decide +kernel)))

/-- Manage Guild passes for ownership, which outranks every decision of the core. -/
theorem manager_granted :
    ¬ ∀ (botOwnerIds : List JsString) (database : Database) (login : Login)
      (session : DashboardSession) (guildId claim : JsString) (roleIds : List JsString),
      IsSession botOwnerIds login session → login.userId ∉ botOwnerIds →
      (∀ guild ∈ login.guilds, guild.id = guildId → guild.owner = false) →
      NonEscalating botOwnerIds database login session guildId claim roleIds := by
  intro all
  have nonEscalating := all [] mappedGuild manager (exchangeCode [] manager) (js "g")
    (js "dashboard.apikeys.manage") [] (Or.inl rfl) (by decide) (by decide)
  exact absurd (by decide +kernel) (nonEscalating.denied (by decide +kernel) (by decide +kernel))

end Dashboard
