import ArmstrongBot.Api.Realtime
import ArmstrongBot.Library.Calendar
import ArmstrongBot.Library.StepMachine
import ArmstrongBot.Library.Table
import Mathlib.Data.List.TakeWhile

/-! API keys: from the two forms that create them, through the column that keeps the scopes, to the
guard that checks a route's claim against them. -/

namespace Api

open Calendar (Timestamp)
open JsText
open Permissions

structure CreateApiKeyDto where
  name : JsString
  scopes : List JsString
  expiresAt : Option Timestamp
  deriving DecidableEq

/-- The DTO of the API and the DTO of the dashboard. -/
inductive KeyForm
  | api
  | dashboard
  deriving DecidableEq

/-- A code unit of `[a-z0-9.*_-]`. -/
def isScopeUnit (code : CodeUnit) : Bool :=
  isLower code || isDigit code || code == dot || code == unit 42 || code == unit 95 ||
    code == unit 45

/-- `CreateApiKeySchema` and `createApiKeySchema`. -/
def KeyForm.accepts (form : KeyForm) (dto : CreateApiKeyDto) : Bool :=
  match form with
  | .api =>
      1 ≤ dto.name.length && dto.name.length ≤ 64 &&
        dto.scopes.all (fun scope => 1 ≤ scope.length) && dto.scopes.length ≤ 50
  | .dashboard =>
      3 ≤ dto.name.length && dto.name.length ≤ 64 &&
        dto.scopes.all (fun scope => 1 ≤ scope.length && scope.all isScopeUnit) &&
        1 ≤ dto.scopes.length

structure ApiKeyRow where
  id : JsString
  guildId : Option JsString
  name : JsString
  hashedKey : JsString
  keyPrefix : JsString
  scopes : JsString
  lastUsedAt : Option Timestamp
  expiresAt : Option Timestamp
  revokedAt : Option Timestamp
  createdAt : Timestamp
  deriving DecidableEq

/-- A row as the services read it, its scopes apart. -/
structure ApiKeyRecord where
  id : JsString
  guildId : Option JsString
  name : JsString
  hashedKey : JsString
  keyPrefix : JsString
  scopes : List JsString
  lastUsedAt : Option Timestamp
  expiresAt : Option Timestamp
  revokedAt : Option Timestamp
  createdAt : Timestamp
  deriving DecidableEq

abbrev ApiKeys := Table ApiKeyRow.id

def comma : CodeUnit := unit 44

/-- `scopes.join(',')`. -/
def joinScopes (scopes : List JsString) : JsString := [comma].intercalate scopes

/-- `scopes ? scopes.split(',').filter(Boolean) : []`. -/
def splitScopes (scopes : JsString) : List JsString :=
  if scopes = [] then [] else (split comma scopes).filter fun scope => scope ≠ []

def toRecord (row : ApiKeyRow) : ApiKeyRecord :=
  { id := row.id, guildId := row.guildId, name := row.name, hashedKey := row.hashedKey
    keyPrefix := row.keyPrefix, scopes := splitScopes row.scopes, lastUsedAt := row.lastUsedAt
    expiresAt := row.expiresAt, revokedAt := row.revokedAt, createdAt := row.createdAt }

def prefixLength : Nat := 8

/-- `create` of the service and of the repository; the key is drawn and hashed, and the database
gives the id. -/
def ApiKeys.create (keys : ApiKeys) (guildId : Option JsString) (dto : CreateApiKeyDto)
    (id rawKey hashedKey : JsString) (now : Timestamp) : Option ApiKeys :=
  keys.insert
    { id, guildId, name := dto.name, hashedKey, keyPrefix := rawKey.take prefixLength
      scopes := joinScopes dto.scopes, lastUsedAt := none, expiresAt := dto.expiresAt
      revokedAt := none, createdAt := now }

def ApiKeyRow.revoked (now : Timestamp) (row : ApiKeyRow) : ApiKeyRow :=
  { row with revokedAt := some now }

def ApiKeyRow.used (now : Timestamp) (row : ApiKeyRow) : ApiKeyRow :=
  { row with lastUsedAt := some now }

def ApiKeys.revoke (keys : ApiKeys) (id : JsString) (now : Timestamp) : Option ApiKeys :=
  keys.change id (ApiKeyRow.revoked now) fun _ => rfl

def ApiKeys.touchLastUsed (keys : ApiKeys) (id : JsString) (now : Timestamp) : Option ApiKeys :=
  keys.change id (ApiKeyRow.used now) fun _ => rfl

def ApiKeys.findActiveByPrefix (keys : ApiKeys) (keyPrefix : JsString) (now : Timestamp) :
    List ApiKeyRecord :=
  ((keys.rows.filter fun row => row.keyPrefix = keyPrefix ∧ row.revokedAt = none).map
    toRecord).filter fun record => record.expiresAt.all fun expiresAt => now < expiresAt

/-- `x-api-key`, or a bearer token that starts with `ghk_`. -/
def extractApiKey (header authorization : Option JsString) : Option JsString :=
  match header.filter fun key => key ≠ [] with
  | some key => some key
  | none =>
      (authorization.filter fun value => (js "Bearer ").isPrefixOf value).bind fun value =>
        let token := value.drop (js "Bearer ").length
        if (js "ghk_").isPrefixOf token then some token else none

section

variable (verify : JsString → JsString → Bool)

def ApiKeys.authenticate (keys : ApiKeys) (rawKey : JsString) (now : Timestamp) :
    Option (ApiKeyRecord × ApiKeys) :=
  ((keys.findActiveByPrefix (rawKey.take prefixLength) now).find? fun candidate =>
    verify rawKey candidate.hashedKey).bind fun candidate =>
      (keys.touchLastUsed candidate.id now).map fun touched => (candidate, touched)

def keyActor (record : ApiKeyRecord) : AuthenticatedActor :=
  { id := record.id, type := .service, method := .apiKey, claims := record.scopes
    guildScope := (record.guildId.filter fun guildId => guildId ≠ []).toList }

/-- `tryApiKey` of `CompositeAuthGuard`. -/
def tryApiKey (keys : ApiKeys) (header authorization : Option JsString) (now : Timestamp) :
    Option (AuthenticatedActor × ApiKeys) :=
  (extractApiKey header authorization).bind fun raw =>
    (keys.authenticate verify raw now).map fun found => (keyActor found.1, found.2)

end

inductive KeyAction
  | create (form : KeyForm) (guildId : Option JsString) (dto : CreateApiKeyDto)
      (id rawKey hashedKey : JsString) (now : Timestamp)
  | revoke (id : JsString) (now : Timestamp)
  | touch (id : JsString) (now : Timestamp)
  deriving DecidableEq

def keyStep (keys : ApiKeys) : KeyAction → Option ApiKeys
  | .create form guildId dto id rawKey hashedKey now =>
      if form.accepts dto then keys.create guildId dto id rawKey hashedKey now else none
  | .revoke id now => keys.revoke id now
  | .touch id now => keys.touchLastUsed id now

/-- The scope on which `some` stops: one that it rejects, or one that covers. -/
def stops (required : Claim) (scope : JsString) : Bool :=
  match Claim.parse scope with
  | .error _ => true
  | .ok held => held.covers required

/-- The scope that lets a claim pass. -/
def grants (required : Claim) (scope : JsString) : Bool :=
  match Claim.parse scope with
  | .error _ => false
  | .ok held => held.covers required

/-- The guard decides for the claim as the submitted scopes say. -/
structure ScopesSurvive (botOwnerIds : List JsString) (database : Database)
    (actor : AuthenticatedActor) (user : ApiUser) (claim : JsString) (required : Claim)
    (submitted : List JsString) : Prop where
  passes : apiPermissionsGuard botOwnerIds database actor user [claim] = .ok () ↔
    Covered submitted required
  answers : ∀ failure,
    apiPermissionsGuard botOwnerIds database actor user [claim] ≠ .error (.permission failure)
  takesEffect : apiPermissionsGuard botOwnerIds database actor user [claim] = .ok () →
    ∀ scope, actor.claims.find? (grants required) = some scope → scope ∈ submitted

/-- The submitted scopes, each cut at its commas. -/
def scopePieces (submitted : List JsString) : List JsString :=
  submitted.flatMap fun scope => (split comma scope).filter fun piece => piece ≠ []

/-- Of the pieces, the first that is malformed or covers the claim is well formed and was submitted
as it stands. -/
def StopsOnSubmitted (required : Claim) (submitted : List JsString) : Prop :=
  ∀ scope, (scopePieces submitted).find? (stops required) = some scope →
    IsClaim scope ∧ scope ∈ submitted

/-! What the column gives back. -/

theorem splitScopes_joinScopes (scopes : List JsString) :
    splitScopes (joinScopes scopes) = scopePieces scopes := by
  have pieces : (split comma (joinScopes scopes)).filter (fun scope => scope ≠ []) =
      scopePieces scopes := by
    induction scopes with
    | nil => decide
    | cons scope rest ih =>
        cases rest with
        | nil => simp [joinScopes, scopePieces, List.intercalate_singleton]
        | cons next rest =>
            have joined : joinScopes (scope :: next :: rest) =
                scope ++ comma :: joinScopes (next :: rest) := by
              simp [joinScopes, List.intercalate_cons_cons]
            rw [joined, split, List.splitOn_append_cons_self, List.filter_append, ← split, ← split,
              ih]
            rfl
  rw [splitScopes]
  split
  · rename_i isEmpty
    rw [← pieces, isEmpty]
    rfl
  · exact pieces

theorem keeps_scopes {keys next : ApiKeys} {action : KeyAction} {row : ApiKeyRow}
    (taken : keyStep keys action = some next) (found : keys.find row.id = some row) :
    ∃ later, next.find row.id = some later ∧ later.scopes = row.scopes := by
  cases action with
  | create form guildId dto id rawKey hashedKey now =>
      simp only [keyStep, ApiKeys.create] at taken
      split at taken
      · have rows := (Table.insert_eq_some_iff.mp taken).2
        refine ⟨row, Table.find_key ?_, rfl⟩
        rw [rows]
        exact List.mem_append_left _ (Table.find_eq_some_iff.mp found).1
      · cases taken
  | revoke id now =>
      have changed := (Table.find_change taken).2 row.id
      rw [found, Option.map_some] at changed
      refine ⟨_, changed, ?_⟩
      split <;> rfl
  | touch id now =>
      have changed := (Table.find_change taken).2 row.id
      rw [found, Option.map_some] at changed
      refine ⟨_, changed, ?_⟩
      split <;> rfl

theorem keeps_scopes_run {keys final : ApiKeys} {actions : List KeyAction} {row : ApiKeyRow}
    (ran : StepMachine.run keyStep keys actions = some final)
    (found : keys.find row.id = some row) :
    ∃ later, final.find row.id = some later ∧ later.scopes = row.scopes := by
  induction actions generalizing keys row with
  | nil =>
      obtain rfl : keys = final := by simpa [StepMachine.run] using ran
      exact ⟨row, found, rfl⟩
  | cons action rest ih =>
      obtain ⟨next, taken, later⟩ := (StepMachine.run_cons keyStep).mp ran
      obtain ⟨changed, isRow, sameScopes⟩ := keeps_scopes taken found
      have sameId : changed.id = row.id := Table.key_of_find isRow
      rw [← sameId] at isRow
      obtain ⟨last, isLast, lastScopes⟩ := ih later isRow
      rw [sameId] at isLast
      exact ⟨last, isLast, lastScopes.trans sameScopes⟩

theorem tryApiKey_claims {verify : JsString → JsString → Bool} {keys next : ApiKeys}
    {header authorization : Option JsString} {now : Timestamp} {actor : AuthenticatedActor}
    (authenticated : tryApiKey verify keys header authorization now = some (actor, next)) :
    actor.carriesClaims = true ∧
      ∃ row, keys.find actor.id = some row ∧ actor.claims = splitScopes row.scopes := by
  obtain ⟨raw, _, answered⟩ := Option.bind_eq_some_iff.mp authenticated
  obtain ⟨found, resolved, isActor⟩ := Option.map_eq_some_iff.mp answered
  obtain ⟨candidate, verified, touched⟩ := Option.bind_eq_some_iff.mp resolved
  obtain ⟨_, _, rfl⟩ := Option.map_eq_some_iff.mp touched
  obtain ⟨rfl, _⟩ := Prod.mk.inj isActor
  have member := (List.mem_filter.mp (List.mem_of_find?_eq_some verified)).1
  obtain ⟨row, isRow, rfl⟩ := List.mem_map.mp member
  exact ⟨by simp [keyActor, AuthenticatedActor.carriesClaims], row,
    Table.find_key (List.mem_filter.mp isRow).1, rfl⟩

/-! Claims and commas. -/

theorem isNamespaced_pieces {pieces : List JsString} (namespaced : isNamespaced pieces = true) :
    ∀ piece ∈ pieces, isSegment piece = true ∨ piece = star := by
  intro piece member
  rcases isNamespaced_cases namespaced with ⟨_, segments⟩ | ⟨path, _, segments, rfl⟩
  · exact .inl (segments piece member)
  · rcases List.mem_append.mp member with inPath | isLast
    · exact .inl (segments piece inPath)
    · exact .inr (List.mem_singleton.mp isLast)

theorem comma_not_mem_of_matches {text : JsString} (isMatch : matchesPattern text = true) :
    comma ∉ text := by
  rintro member
  rw [matchesPattern, Bool.or_eq_true, beq_iff_eq] at isMatch
  rcases isMatch with rfl | namespaced
  · exact absurd member (by decide)
  · rcases mem_split dot member with isDot | ⟨piece, isPiece, inPiece⟩
    · exact absurd isDot (by decide)
    · rcases isNamespaced_pieces namespaced piece isPiece with segment | rfl
      · rw [isSegment, Bool.and_eq_true, List.all_eq_true] at segment
        exact absurd (segment.2 comma inPiece) (by decide)
      · exact absurd inPiece (by decide)

theorem mem_trim {code : CodeUnit} {text : JsString} (visible : isSpace code = false)
    (member : code ∈ text) : code ∈ trim text := by
  have kept {other : JsString} (isIn : code ∈ other) : code ∈ other.dropWhile isSpace := by
    rw [← List.takeWhile_append_dropWhile (p := isSpace) (l := other), List.mem_append] at isIn
    rcases isIn with dropped | left
    · have isBlank := List.mem_takeWhile_imp dropped
      rw [visible] at isBlank
      exact absurd isBlank (by decide)
    · exact left
  rw [trim, List.mem_reverse]
  exact kept (List.mem_reverse.mpr (kept member))

theorem comma_not_mem {scope : JsString} (formed : IsClaim scope) : comma ∉ scope := by
  obtain ⟨held, parsed⟩ := formed
  rintro member
  rw [Claim.parse] at parsed
  split at parsed
  · rename_i isMatch
    refine comma_not_mem_of_matches isMatch ?_
    exact List.mem_map.mpr ⟨comma, mem_trim (by decide) member, by decide⟩
  · cases parsed

theorem ne_nil_of_isClaim {scope : JsString} (formed : IsClaim scope) : scope ≠ [] := by
  rintro rfl
  exact absurd formed (by decide)

theorem mem_scopePieces {submitted : List JsString} {scope : JsString} (formed : IsClaim scope)
    (member : scope ∈ submitted) : scope ∈ scopePieces submitted := by
  refine List.mem_flatMap.mpr ⟨scope, member, ?_⟩
  rw [split, List.splitOn_eq_singleton (comma_not_mem formed)]
  simp [ne_nil_of_isClaim formed]

/-! The guard on an actor that carries claims. -/

theorem someCovers_eq (required : Claim) (claims : List JsString) :
    someCovers required claims =
      match claims.find? (stops required) with
      | none => .ok false
      | some scope => (Claim.parse scope).map fun _ => true := by
  induction claims with
  | nil => rfl
  | cons scope rest ih =>
      cases parsed : Claim.parse scope with
      | error failure => simp [someCovers, stops, parsed, Except.map]
      | ok held =>
          cases covers : held.covers required with
          | true => simp [someCovers, stops, parsed, covers, Except.map]
          | false => simp [someCovers, stops, parsed, covers, ih]

theorem guard_eq {botOwnerIds : List JsString} {database : Database} {actor : AuthenticatedActor}
    {user : ApiUser} {claim : JsString} {required : Claim}
    (carries : actor.carriesClaims = true) (parsed : Claim.parse claim = .ok required) :
    apiPermissionsGuard botOwnerIds database actor user [claim] =
      match actor.claims.find? (stops required) with
      | none => .error .forbidden
      | some scope =>
          match Claim.parse scope with
          | .error failure => .error (.permission failure)
          | .ok _ => .ok () := by
  simp only [apiPermissionsGuard, satisfies, parsed, carries, if_true, someCovers_eq]
  cases actor.claims.find? (stops required) with
  | none => rfl
  | some scope => cases isParsed : Claim.parse scope <;> simp [Except.map, isParsed]

theorem find_grants {required : Claim} {claims : List JsString} {scope : JsString}
    (found : claims.find? (stops required) = some scope) (formed : IsClaim scope) :
    claims.find? (grants required) = some scope := by
  obtain ⟨held, parsed⟩ := formed
  obtain ⟨stopped, front, back, isList, before⟩ := List.find?_eq_some_iff_append.mp found
  have granted : grants required scope = true := by simpa [stops, grants, parsed] using stopped
  refine List.find?_eq_some_iff_append.mpr ⟨granted, front, back, isList, ?_⟩
  intro earlier member
  have passed := before earlier member
  simp only [stops, grants] at passed ⊢
  cases isParsed : Claim.parse earlier <;> simp_all

theorem scopesSurvive_of_claims {botOwnerIds : List JsString} {database : Database}
    {actor : AuthenticatedActor} {user : ApiUser} {claim : JsString} {required : Claim}
    {submitted : List JsString} (carries : actor.carriesClaims = true)
    (claims : actor.claims = scopePieces submitted) (parsed : Claim.parse claim = .ok required) :
    ScopesSurvive botOwnerIds database actor user claim required submitted ↔
      StopsOnSubmitted required submitted := by
  have decided := @guard_eq botOwnerIds database actor user claim required carries parsed
  rw [claims] at decided
  cases found : (scopePieces submitted).find? (stops required) with
  | none =>
      rw [found] at decided
      have uncovered : ¬ Covered submitted required := by
        rintro ⟨scope, member, held, isHeld, covers⟩
        have passed := List.find?_eq_none.mp found scope (mem_scopePieces ⟨held, isHeld⟩ member)
        simp [stops, isHeld, covers] at passed
      refine iff_of_true ⟨?_, ?_, ?_⟩ ?_
      · simp [decided, uncovered]
      · simp [decided]
      · simp [decided]
      · simp [StopsOnSubmitted, found]
  | some scope =>
      rw [found] at decided
      have isFound : StopsOnSubmitted required submitted ↔ IsClaim scope ∧ scope ∈ submitted := by
        simp [StopsOnSubmitted, found]
      rw [isFound]
      cases isParsed : Claim.parse scope with
      | error failure =>
          simp only [isParsed] at decided
          have malformed : ¬ IsClaim scope := by
            rintro ⟨held, isHeld⟩
            rw [isParsed] at isHeld
            cases isHeld
          refine iff_of_false ?_ fun formed => malformed formed.1
          intro survive
          exact survive.answers failure decided
      | ok held =>
          simp only [isParsed] at decided
          have formed : IsClaim scope := ⟨held, isParsed⟩
          have covers : held.covers required = true := by
            have stopped := List.find?_some found
            simpa [stops, isParsed] using stopped
          have granted := find_grants found formed
          rw [← claims] at granted
          constructor
          · intro survive
            exact ⟨formed, survive.takesEffect decided scope granted⟩
          · rintro ⟨_, member⟩
            refine ⟨iff_of_true decided ⟨scope, member, held, isParsed, covers⟩, ?_, ?_⟩
            · simp [decided]
            · intro _ other isOther
              rw [granted] at isOther
              rw [← Option.some.inj isOther]
              exact member

def sampleUser : ApiUser :=
  { id := js "k", guildId := js "g", discordRoleIds := [], isGuildOwner := false }

def createSample (scopes : List JsString) : KeyAction :=
  .create .api (some (js "g")) { name := js "bot", scopes, expiresAt := none } (js "k")
    (js "ghk_0123") (js "#ghk_0123") 5

/-- A hash that puts a sign before the key. -/
def signed (rawKey hashedKey : JsString) : Bool := hashedKey = js "#" ++ rawKey

def sampleKeys (scopes : List JsString) : ApiKeys :=
  (keyStep Table.empty (createSample scopes)).getD Table.empty

def sampleActor (scopes : List JsString) : AuthenticatedActor :=
  { id := js "k", type := .service, method := .apiKey, claims := scopes, guildScope := [js "g"] }

def usedKeys (scopes : List JsString) : ApiKeys :=
  ((sampleKeys scopes).touchLastUsed (js "k") 7).getD Table.empty

/-- The scopes of a key survive exactly where the guard stops on one that was submitted. -/
theorem scopesSurvive_iff {form : KeyForm} {guildId : Option JsString} {dto : CreateApiKeyDto}
    {id rawKey hashedKey : JsString} {createdAt now : Timestamp}
    {before created after next : ApiKeys}
    (isCreated :
      keyStep before (.create form guildId dto id rawKey hashedKey createdAt) = some created)
    {later : List KeyAction} (ran : StepMachine.run keyStep created later = some after)
    {verify : JsString → JsString → Bool} {header authorization : Option JsString}
    {actor : AuthenticatedActor}
    (authenticated : tryApiKey verify after header authorization now = some (actor, next))
    (withKey : actor.id = id) {botOwnerIds : List JsString} {database : Database} {user : ApiUser}
    {claim : JsString} {required : Claim} (parsed : Claim.parse claim = .ok required) :
    ScopesSurvive botOwnerIds database actor user claim required dto.scopes ↔
      StopsOnSubmitted required dto.scopes := by
  simp only [keyStep] at isCreated
  split at isCreated
  · obtain ⟨_, rows⟩ := Table.insert_eq_some_iff.mp isCreated
    have inserted := Table.find_key (rows ▸ List.mem_append_right _ (List.mem_singleton.mpr rfl))
    obtain ⟨row, isRow, kept⟩ := keeps_scopes_run ran inserted
    obtain ⟨carries, found, isFound, claims⟩ := tryApiKey_claims authenticated
    rw [withKey, isRow] at isFound
    obtain rfl := Option.some.inj isFound
    refine scopesSurvive_of_claims carries ?_ parsed
    rw [claims, kept, splitScopes_joinScopes]
  · cases isCreated

def sampleRequired : Claim := { value := js "tickets.read", formed := by decide +kernel }

theorem scopesSurvive_wildcard :
    ScopesSurvive [] mappedGuild (sampleActor [js "tickets.*"]) sampleUser (js "tickets.read")
      sampleRequired [js "tickets.*"] := by
  have created : keyStep Table.empty (createSample [js "tickets.*"]) =
      some (sampleKeys [js "tickets.*"]) := rfl
  have ran : StepMachine.run keyStep (sampleKeys [js "tickets.*"]) [] =
      some (sampleKeys [js "tickets.*"]) := rfl
  have authenticated :
      tryApiKey signed (sampleKeys [js "tickets.*"]) (some (js "ghk_0123")) none 7 =
        some (sampleActor [js "tickets.*"], usedKeys [js "tickets.*"]) := rfl
  have parsed : Claim.parse (js "tickets.read") = .ok sampleRequired := by decide +kernel
  refine (scopesSurvive_iff created ran authenticated rfl parsed).mpr ?_
  intro scope found
  have isScope : (scopePieces [js "tickets.*"]).find? (stops sampleRequired) =
      some (js "tickets.*") := by
    decide +kernel
  obtain rfl := Option.some.inj (isScope.symm.trans found)
  exact ⟨by decide +kernel, by decide⟩

/-- A comma inside a scope of the API form makes a `*` that no one submitted. -/
theorem scope_split_at_comma :
    ¬ ∀ (form : KeyForm) (guildId : Option JsString) (dto : CreateApiKeyDto)
      (id rawKey hashedKey : JsString) (createdAt now : Timestamp)
      (before created after next : ApiKeys) (later : List KeyAction)
      (verify : JsString → JsString → Bool) (header authorization : Option JsString)
      (actor : AuthenticatedActor) (botOwnerIds : List JsString) (database : Database)
      (user : ApiUser) (claim : JsString) (required : Claim),
      keyStep before (.create form guildId dto id rawKey hashedKey createdAt) = some created →
      StepMachine.run keyStep created later = some after →
      tryApiKey verify after header authorization now = some (actor, next) → actor.id = id →
      Claim.parse claim = .ok required →
      ScopesSurvive botOwnerIds database actor user claim required dto.scopes := by
  intro all
  have survive := all .api (some (js "g"))
    { name := js "bot", scopes := [js "members.read,*"], expiresAt := none } (js "k")
    (js "ghk_0123") (js "#ghk_0123") 5 7 Table.empty (sampleKeys [js "members.read,*"])
    (sampleKeys [js "members.read,*"]) (usedKeys [js "members.read,*"]) [] signed
    (some (js "ghk_0123")) none (sampleActor [js "members.read", js "*"]) [] mappedGuild sampleUser
    (js "tickets.read") sampleRequired rfl rfl rfl rfl (by decide +kernel)
  have passed : apiPermissionsGuard [] mappedGuild (sampleActor [js "members.read", js "*"])
      sampleUser [js "tickets.read"] = .ok () := by
    decide +kernel
  obtain ⟨scope, member, held, parsed, _⟩ := survive.passes.mp passed
  rw [List.mem_singleton.mp member] at parsed
  exact absurd ⟨held, parsed⟩ (show ¬ IsClaim (js "members.read,*") by decide +kernel)

end Api
