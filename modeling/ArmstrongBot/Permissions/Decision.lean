import ArmstrongBot.Permissions.Repositories

/-! The decision of `can` against the decision that the rows of the tables call for. -/

namespace Permissions

open JsText Precedence

def Covers (row : ClaimGrant) (required : Claim) : Prop :=
  ∃ held, Claim.parse row.claim = .ok held ∧ held.covers required = true

def rank (row : ClaimGrant) : Nat :=
  match Claim.parse row.claim with
  | .ok held => held.specificity
  | .error _ => 0

/-- The groups that an actor holds by the rows: the default group, those mapped to a role of the
actor, and every ancestor of one held. -/
inductive Holds (database : Database) (actor : PermissionActor) : PermissionGroup → Prop
  | default {group : PermissionGroup} : group ∈ findByGuild database actor.guildId →
      group.key = memberKey → Holds database actor group
  | mapped {group : PermissionGroup} {mapping : RoleGroupMapping} :
      group ∈ findByGuild database actor.guildId → mapping ∈ database.mappings →
      mapping.guildId = actor.guildId → mapping.discordRoleId ∈ actor.discordRoleIds →
      mapping.groupId = group.id → Holds database actor group
  | inherited {child group : PermissionGroup} {link : GroupInheritance} :
      Holds database actor child → link ∈ database.inheritances →
      link.childGroupId = child.id → link.parentGroupId = group.id →
      group ∈ findByGuild database actor.guildId → Holds database actor group

/-- The covering grants of one effect in the groups that satisfy a predicate. -/
def grantsIn (database : Database) (holds : PermissionGroup → Prop) (required : Claim)
    (effect : ClaimEffect) : Set ClaimGrant :=
  {row | row ∈ database.grants ∧ row.effect = effect ∧ Covers row required ∧
    ∃ group, holds group ∧ row.groupId = group.id}

def heldGrants (database : Database) (actor : PermissionActor) : Claim → ClaimEffect → Set ClaimGrant :=
  grantsIn database (Holds database actor)

def IsDefault (database : Database) (guildId : JsString) (group : PermissionGroup) : Prop :=
  group ∈ findByGuild database guildId ∧ group.key = memberKey

def defaultGrants (database : Database) (actor : PermissionActor) :
    Claim → ClaimEffect → Set ClaimGrant :=
  grantsIn database (IsDefault database actor.guildId)

/-- The decision on the rows: the most specific covering grant of the held groups is a GRANT, and
no DENY ties with it. -/
def ReferenceAllows (database : Database) (actor : PermissionActor) (required : Claim) : Prop :=
  Prevails rank (heldGrants database actor required .GRANT)
    (heldGrants database actor required .DENY)

def DefaultAllows (database : Database) (actor : PermissionActor) (required : Claim) : Prop :=
  Prevails rank (defaultGrants database actor required .GRANT)
    (defaultGrants database actor required .DENY)

def DecidesByRows (botOwnerIds : List JsString) (database : Database) (actor : PermissionActor)
    (claim : JsString) (required : Claim) : Prop :=
  ∃ allowed, can botOwnerIds (loadSnapshot database actor.guildId) actor claim = .ok allowed ∧
    (allowed = true ↔ ReferenceAllows database actor required)

/-- A covering grant that reaches the actor only through a role mapping or an inheritance link is
outweighed by one that decides as the default group's own grants do. -/
def LostGrantsOutweighed (database : Database) (actor : PermissionActor) (required : Claim) : Prop :=
  (DefaultAllows database actor required →
    ∀ lost ∈ heldGrants database actor required .DENY \ defaultGrants database actor required .DENY,
      ∃ row ∈ heldGrants database actor required .GRANT, rank lost < rank row) ∧
  (¬ DefaultAllows database actor required →
    ∀ lost ∈ heldGrants database actor required .GRANT \ defaultGrants database actor required .GRANT,
      ∃ row ∈ heldGrants database actor required .DENY, rank lost ≤ rank row)

theorem defaultGrants_subset (database : Database) (actor : PermissionActor) (required : Claim)
    (effect : ClaimEffect) :
    defaultGrants database actor required effect ⊆ heldGrants database actor required effect := by
  rintro row ⟨member, sameEffect, covers, group, isDefault, ofGroup⟩
  exact ⟨member, sameEffect, covers, group, .default isDefault.1 isDefault.2, ofGroup⟩

theorem heldGrants_finite (database : Database) (actor : PermissionActor) (required : Claim)
    (effect : ClaimEffect) : (heldGrants database actor required effect).Finite := by
  apply Set.Finite.subset (List.finite_toSet database.grants)
  intro row held
  exact held.1

/-! No id finds a group: the record of the groups goes by key. -/

theorem groups_of_id {database : Database} {guildId id : JsString}
    (isId : id ∈ database.groups.map PermissionGroup.id) :
    (loadSnapshot database guildId).groups id = none := by
  cases found : (loadSnapshot database guildId).groups id with
  | none => rfl
  | some resolved =>
      obtain ⟨member, same⟩ := Record.ofList_find found
      obtain ⟨group, isLive, rfl⟩ := List.mem_map.mp member
      rw [← same] at isId
      exact absurd isId (database.named group (mem_findByGuild.mp isLive).1)

theorem filterMap_eraseDups_cons {α β : Type} [BEq α] [LawfulBEq α] {find : α → Option β} {first : α}
    {rest : List α} (missing : ∀ key ∈ rest, key ≠ first → find key = none) :
    (first :: rest).eraseDups.filterMap find = (find first).toList := by
  have later : ((rest.filter fun key => !key == first).eraseDups).filterMap find = [] := by
    apply List.filterMap_eq_nil_iff.mpr
    intro key member
    obtain ⟨inRest, apart⟩ := List.mem_filter.mp (List.mem_eraseDups.mp member)
    exact missing key inRest (by simpa using apart)
  rw [List.eraseDups_cons, List.filterMap_cons, later]
  cases find first <;> rfl

variable {botOwnerIds : List JsString} {database : Database} {actor : PermissionActor}

def contextOf (botOwnerIds : List JsString) (database : Database) (actor : PermissionActor) :
    PermissionContext :=
  getContext (loadSnapshot database actor.guildId) actor.guildId actor.isGuildOwner
    (actor.userId ∈ botOwnerIds) actor.discordRoleIds

theorem resolvedGroups_contextOf :
    resolvedGroups (contextOf botOwnerIds database actor) =
      ((loadSnapshot database actor.guildId).groups memberKey).toList := by
  have found : (resolveGroupKeys (contextOf botOwnerIds database actor)).filterMap
      (contextOf botOwnerIds database actor).groups =
        ((loadSnapshot database actor.guildId).groups memberKey).toList := by
    apply filterMap_eraseDups_cons
    intro key member _
    obtain ⟨roleId, _, ofRole⟩ := List.mem_flatMap.mp member
    obtain ⟨mapping, isMapping, _, _, rfl⟩ := mem_buildRoleToGroupsMap.mp ofRole
    exact groups_of_id (database.mapped mapping isMapping)
  rw [resolvedGroups, found]
  cases (loadSnapshot database actor.guildId).groups memberKey <;> simp

theorem groups_memberKey {resolved : ResolvedGroup}
    (found : (loadSnapshot database actor.guildId).groups memberKey = some resolved) :
    ∃ group, IsDefault database actor.guildId group ∧ resolved.key = group.key ∧
      resolved.grants =
        (database.grants.filter fun row => row.groupId = group.id).map grantOf ∧
      ∀ parent ∈ resolved.parents, parent ∈ database.groups.map PermissionGroup.id := by
  obtain ⟨member, same⟩ := Record.ofList_find found
  obtain ⟨group, isLive, rfl⟩ := List.mem_map.mp member
  refine ⟨group, ⟨isLive, same⟩, rfl, rfl, ?_⟩
  intro parent isParent
  obtain ⟨link, isLink, rfl⟩ := List.mem_map.mp isParent
  exact database.inherited link (List.mem_of_mem_filter isLink)

theorem isDefault_unique {group other : PermissionGroup}
    (isDefault : IsDefault database actor.guildId group)
    (otherDefault : IsDefault database actor.guildId other) : group = other := by
  have live := mem_findByGuild.mp isDefault.1
  have otherLive := mem_findByGuild.mp otherDefault.1
  apply List.inj_on_of_nodup_map database.distinctKeys live.1 otherLive.1
  rw [live.2.1, otherLive.2.1, isDefault.2, otherDefault.2]

theorem visitParents_missing {context : PermissionContext}
    {visit : ResolvedGroup → Walk → Except PermissionError Walk} {keys : List JsString}
    (missing : ∀ key ∈ keys, context.groups key = none) (walk : Walk) :
    keys.foldlM (visitParent context visit) walk = .ok walk := by
  induction keys with
  | nil => rfl
  | cons key rest ih =>
      have passed : visitParent context visit walk key = .ok walk := by
        rw [visitParent, missing key List.mem_cons_self]
      rw [List.foldlM_cons, passed]
      exact ih fun other member => missing other (List.mem_cons_of_mem key member)

/-- Parents are ids, so the walk of a group ends with its own grants. -/
theorem walkGroup_alone {required : Claim} {resolved : ResolvedGroup} {maxDepth left : Nat}
    (formed : ∀ grant ∈ resolved.grants, ∃ held, Claim.parse grant.claim = .ok held)
    (parents : ∀ parent ∈ resolved.parents, parent ∈ database.groups.map PermissionGroup.id) :
    ∃ walk, walkGroup (contextOf botOwnerIds database actor) required maxDepth (left + 1) resolved
        Walk.start = .ok walk ∧
      Summarises walk (matchesOf resolved.key required resolved.grants) := by
  have initial : Summarises { Walk.start with visited := [resolved.key] } [] :=
    ⟨highest_nil _, highest_nil _⟩
  obtain ⟨walk, matched, summary⟩ := matchGrants_ok formed initial
  refine ⟨walk, ?_, by simpa using summary⟩
  have fresh : resolved.key ∉ Walk.start.visited := by simp [Walk.start]
  rw [walkGroup, if_neg fresh]
  simp only [Walk.start] at matched ⊢
  rw [matched]
  apply visitParents_missing
  intro key isParent
  exact groups_of_id (parents key isParent)

def matchOf (groupKey : JsString) (row : ClaimGrant) : MatchResult :=
  { effect := row.effect, specificity := rank row, groupKey, matchedClaim := row.claim }

theorem mem_matchesOf {groupKey : JsString} {required : Claim} {rows : List ClaimGrant}
    {result : MatchResult} :
    result ∈ matchesOf groupKey required (rows.map grantOf) ↔
      ∃ row ∈ rows, Covers row required ∧ matchOf groupKey row = result := by
  simp only [matchesOf, List.mem_filterMap, List.mem_map, exists_exists_and_eq_and]
  apply exists_congr
  intro row
  apply and_congr_right
  intro _
  simp only [grantOf, Covers, matchOf, rank]
  cases Claim.parse row.claim with
  | error failure => simp
  | ok held => by_cases covers : held.covers required = true <;> simp [covers]

theorem matches_default {group : PermissionGroup}
    (isDefault : IsDefault database actor.guildId group) (groupKey : JsString) (required : Claim)
    (effect : ClaimEffect) :
    {result | result ∈ matchesOf groupKey required
        ((database.grants.filter fun row => row.groupId = group.id).map grantOf) ∧
      result.effect = effect} =
    matchOf groupKey '' defaultGrants database actor required effect := by
  ext result
  simp only [mem_matchesOf, List.mem_filter, decide_eq_true_eq, Set.mem_ofPred_eq, Set.mem_image,
    defaultGrants, grantsIn]
  constructor
  · rintro ⟨⟨row, ⟨member, ofGroup⟩, covers, rfl⟩, sameEffect⟩
    exact ⟨row, ⟨member, sameEffect, covers, group, isDefault, ofGroup⟩, rfl⟩
  · rintro ⟨row, ⟨member, sameEffect, covers, other, otherDefault, ofGroup⟩, rfl⟩
    obtain rfl := isDefault_unique isDefault otherDefault
    exact ⟨⟨row, ⟨member, ofGroup⟩, covers, rfl⟩, sameEffect⟩

theorem noDefault {required : Claim} {effect : ClaimEffect}
    (missing : (loadSnapshot database actor.guildId).groups memberKey = none) :
    defaultGrants database actor required effect = ∅ := by
  apply Set.eq_empty_of_forall_notMem
  rintro row ⟨_, _, _, group, ⟨isLive, isMember⟩, _⟩
  have member : resolveGroup database group ∈ loadResolvedGroups database actor.guildId :=
    List.mem_map_of_mem isLive
  have present : ((loadSnapshot database actor.guildId).groups group.key).isSome :=
    Record.ofList_isSome member
  rw [isMember, missing] at present
  simp at present

theorem can_eq_default (formed : ∀ row ∈ database.grants, ∃ held, Claim.parse row.claim = .ok held)
    (notBotOwner : actor.userId ∉ botOwnerIds) (notGuildOwner : actor.isGuildOwner = false)
    {claim : JsString} {required : Claim} (parsed : Claim.parse claim = .ok required) :
    ∃ allowed, can botOwnerIds (loadSnapshot database actor.guildId) actor claim = .ok allowed ∧
      (allowed = true ↔ DefaultAllows database actor required) := by
  have global : ((contextOf botOwnerIds database actor).isBotOwner ||
      (contextOf botOwnerIds database actor).isGuildOwner) = false := by
    simp [contextOf, getContext, notBotOwner, notGuildOwner]
  have resolved (walk : Walk) (walked : (resolvedGroups (contextOf botOwnerIds database actor)).foldlM
      (fun walk group => walkGroup (contextOf botOwnerIds database actor) required defaultMaxDepth
        (defaultMaxDepth + 1) group walk) Walk.start = .ok walk) :
      can botOwnerIds (loadSnapshot database actor.guildId) actor claim =
        .ok (decision walk).allowed := by
    have decided : resolve (contextOf botOwnerIds database actor) claim = .ok (decision walk) := by
      rw [resolve, if_neg (by simp [global]), parsed]
      simp only [bind, Except.bind]
      rw [walked]
      rfl
    rw [can, explain]
    exact congrArg (Except.map PermissionDecision.allowed) decided
  rw [resolvedGroups_contextOf] at resolved
  cases found : (loadSnapshot database actor.guildId).groups memberKey with
  | none =>
      refine ⟨_, resolved Walk.start (by rw [found]; rfl), ?_⟩
      simp only [DefaultAllows, noDefault found]
      simp [decision, Walk.start, not_prevails_empty]
  | some group =>
      obtain ⟨row, isDefault, sameKey, sameGrants, parents⟩ := groups_memberKey found
      have formedGrants : ∀ grant ∈ group.grants, ∃ held, Claim.parse grant.claim = .ok held := by
        intro grant member
        rw [sameGrants] at member
        obtain ⟨grantRow, ofGroup, rfl⟩ := List.mem_map.mp member
        exact formed grantRow (List.mem_of_mem_filter ofGroup)
      obtain ⟨walk, walked, summary⟩ := walkGroup_alone formedGrants parents
      refine ⟨_, resolved walk (by rw [found]; simpa using walked), ?_⟩
      rw [decision_allowed summary, sameGrants, matches_default isDefault, matches_default isDefault,
        prevails_image]
      rfl

/-- The decision of `can` is the one the rows call for exactly when every covering grant that
comes by a role mapping or an inheritance link is outweighed. -/
theorem decidesByRows_iff
    (formed : ∀ row ∈ database.grants, ∃ held, Claim.parse row.claim = .ok held)
    (notBotOwner : actor.userId ∉ botOwnerIds) (notGuildOwner : actor.isGuildOwner = false)
    {claim : JsString} {required : Claim} (parsed : Claim.parse claim = .ok required) :
    DecidesByRows botOwnerIds database actor claim required ↔
      LostGrantsOutweighed database actor required := by
  obtain ⟨allowed, answers, decides⟩ := can_eq_default formed notBotOwner notGuildOwner parsed
  have exact_ := prevails_iff_of_subset rank (heldGrants_finite database actor required .GRANT)
    (defaultGrants_subset database actor required .GRANT)
    (defaultGrants_subset database actor required .DENY)
  rw [LostGrantsOutweighed, DefaultAllows, ← exact_]
  constructor
  · rintro ⟨answered, sameAnswer, byRows⟩
    rw [answers] at sameAnswer
    obtain rfl := Except.ok.inj sameAnswer
    exact decides.symm.trans byRows
  · intro same
    exact ⟨allowed, answers, decides.trans same⟩

/-! A guild with the default group and a second one, which a role is mapped to. -/

def memberGroup : PermissionGroup :=
  { id := js "cm1", guildId := js "g", key := memberKey, priority := 100, deletedAt := none }

def adminGroup : PermissionGroup :=
  { id := js "cm2", guildId := js "g", key := js "admin", priority := 800, deletedAt := none }

def mappedGuild : Database :=
  { groups := [memberGroup, adminGroup]
    grants := [{ guildId := js "g", groupId := js "cm1", claim := js "tickets.create"
                 effect := .GRANT },
      { guildId := js "g", groupId := js "cm2", claim := js "admin.*", effect := .GRANT }]
    mappings := [{ guildId := js "g", discordRoleId := js "42", groupId := js "cm2" }]
    inheritances := []
    distinctIds := by decide
    distinctKeys := by decide
    distinctGrants := by decide
    distinctMappings := by decide
    distinctInheritances := by decide
    mapped := by decide
    inherited := by decide
    named := by decide }

def administrator : PermissionActor :=
  { userId := js "7", guildId := js "g", discordRoleIds := [js "42"], isGuildOwner := false }

theorem mappedGuild_formed :
    ∀ row ∈ mappedGuild.grants, ∃ held, Claim.parse row.claim = .ok held := by
  intro row member
  simp only [mappedGuild, List.mem_cons, List.not_mem_nil, or_false] at member
  rcases member with rfl | rfl
  · exact ⟨{ value := js "tickets.create", formed := by decide +kernel }, by decide +kernel⟩
  · exact ⟨{ value := js "admin.*", formed := by decide +kernel }, by decide +kernel⟩

def banClaim : Claim := { value := js "admin.ban", formed := by decide +kernel }

theorem decidesByRows_administrator :
    DecidesByRows [] mappedGuild administrator (js "admin.ban") banClaim ↔
      LostGrantsOutweighed mappedGuild administrator banClaim :=
  decidesByRows_iff mappedGuild_formed (by decide) (by decide) (by decide +kernel)

/-- The group mapped to the actor's role grants the claim, and `can` refuses it. -/
theorem roleMapping_ineffective :
    ¬ ∀ (botOwnerIds : List JsString) (database : Database) (actor : PermissionActor)
      (claim : JsString) (required : Claim),
      (∀ row ∈ database.grants, ∃ held, Claim.parse row.claim = .ok held) →
      actor.userId ∉ botOwnerIds → actor.isGuildOwner = false →
      Claim.parse claim = .ok required →
      DecidesByRows botOwnerIds database actor claim required := by
  intro all
  obtain ⟨allowed, answers, decides⟩ := all [] mappedGuild administrator (js "admin.ban") banClaim
    mappedGuild_formed (by decide) (by decide) (by decide +kernel)
  have refused : can [] (loadSnapshot mappedGuild (js "g")) administrator (js "admin.ban") =
      .ok false := by decide +kernel
  have denied : allowed = false := Except.ok.inj (answers.symm.trans refused)
  have isMapped : { guildId := js "g", discordRoleId := js "42", groupId := js "cm2" } ∈
      mappedGuild.mappings := List.mem_cons_self
  have holds : Holds mappedGuild administrator adminGroup :=
    .mapped (by decide +kernel) isMapped rfl (by decide) rfl
  have byRows : ReferenceAllows mappedGuild administrator banClaim := by
    refine ⟨{ guildId := js "g", groupId := js "cm2", claim := js "admin.*", effect := .GRANT },
      ⟨by decide, rfl, ⟨{ value := js "admin.*", formed := by decide +kernel }, ?_⟩,
        adminGroup, holds, rfl⟩, ?_⟩
    · exact ⟨by decide +kernel, by decide +kernel⟩
    · intro other denies
      have isGrant : ∀ row ∈ mappedGuild.grants, row.effect = .GRANT := by decide
      have effect := denies.2.1
      rw [isGrant other denies.1] at effect
      exact absurd effect (by decide)
  rw [denied] at decides
  exact absurd (decides.mpr byRows) (by decide)

end Permissions
