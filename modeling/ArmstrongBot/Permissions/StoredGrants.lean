import ArmstrongBot.Permissions.Decision
import ArmstrongBot.Permissions.Mutations
import ArmstrongBot.Library.StepMachine
import Mathlib.Data.Fintype.EquivFin

/-! The claims that the mutations store, and the checks that read them back. -/

namespace Permissions

open JsText Precedence StepMachine

def IsClaim (text : JsString) : Prop := ∃ held, Claim.parse text = .ok held

instance (text : JsString) : Decidable (IsClaim text) :=
  match parsed : Claim.parse text with
  | .ok held => .isTrue ⟨held, parsed⟩
  | .error _ => .isFalse fun ⟨_, isOk⟩ => by rw [parsed] at isOk; simp at isOk

/-! A context in which no group is reached by an id. -/

structure Flat (snapshot : Snapshot) : Prop where
  default : snapshot.defaultGroupKeys = [memberKey]
  mapped : ∀ roleId, ∀ id ∈ (snapshot.roleToGroups roleId).getD [], snapshot.groups id = none
  parents : ∀ group ∈ snapshot.groups memberKey, ∀ parent ∈ group.parents,
    snapshot.groups parent = none

theorem groups_ofId {database : Database} {guildId id : JsString}
    {roleToGroups : Record (List JsString)}
    (isId : id ∈ database.groups.map PermissionGroup.id) :
    (snapshotOf (loadResolvedGroups database guildId) roleToGroups).groups id = none :=
  show (loadSnapshot database guildId).groups id = none from groups_of_id isId

/-- The two queries of a context may come from different moments. -/
theorem flat_snapshotOf {database later : Database} (sameGroups : later.groups = database.groups)
    (guildId : JsString) :
    Flat (snapshotOf (loadResolvedGroups database guildId)
      (buildRoleToGroupsMap later guildId)) := by
  refine ⟨rfl, ?_, ?_⟩
  · intro roleId id ofRole
    obtain ⟨mapping, isMapping, _, _, rfl⟩ := mem_buildRoleToGroupsMap.mp ofRole
    have isId := later.mapped mapping isMapping
    rw [sameGroups] at isId
    exact groups_ofId isId
  · intro group found parent isParent
    obtain ⟨member, _⟩ := Record.ofList_find found
    obtain ⟨row, _, rfl⟩ := List.mem_map.mp member
    obtain ⟨link, isLink, rfl⟩ := List.mem_map.mp isParent
    exact groups_ofId (database.inherited link (List.mem_of_mem_filter isLink))

theorem flat_loadSnapshot (database : Database) (guildId : JsString) :
    Flat (loadSnapshot database guildId) := flat_snapshotOf rfl guildId

variable {botOwnerIds : List JsString} {snapshot : Snapshot} {actor : PermissionActor}

/-- Only the default group decides: its own grants, one after the other. -/
def defaultDecision (snapshot : Snapshot) (required : Claim) : Except PermissionError Bool :=
  match snapshot.groups memberKey with
  | none => .ok false
  | some group =>
      (matchGrants group.key required group.grants
        { Walk.start with visited := [group.key] }).map fun walk => (decision walk).allowed

theorem walkGroup_flat (flat : Flat snapshot) (context : PermissionContext)
    (sameGroups : context.groups = snapshot.groups) {group : ResolvedGroup}
    (found : group ∈ snapshot.groups memberKey) (required : Claim) (maxDepth left : Nat) :
    walkGroup context required maxDepth (left + 1) group Walk.start =
      matchGrants group.key required group.grants { Walk.start with visited := [group.key] } := by
  have fresh : group.key ∉ Walk.start.visited := by simp [Walk.start]
  rw [walkGroup, if_neg fresh]
  have missing : ∀ key ∈ group.parents, context.groups key = none := by
    rw [sameGroups]
    exact flat.parents group found
  cases matched : matchGrants group.key required group.grants
      { Walk.start with visited := [group.key] } with
  | error failure =>
      simp only [Walk.start] at matched ⊢
      rw [matched]
      rfl
  | ok walk =>
      simp only [Walk.start] at matched ⊢
      rw [matched]
      exact visitParents_missing missing walk

theorem resolvedGroups_flat (flat : Flat snapshot) (guildId : JsString)
    (isGuildOwner isBotOwner : Bool) (memberRoleIds : List JsString) :
    resolvedGroups (getContext snapshot guildId isGuildOwner isBotOwner memberRoleIds) =
      (snapshot.groups memberKey).toList := by
  have found : (resolveGroupKeys
      (getContext snapshot guildId isGuildOwner isBotOwner memberRoleIds)).filterMap
        snapshot.groups = (snapshot.groups memberKey).toList := by
    rw [resolveGroupKeys, getContext, flat.default]
    apply filterMap_eraseDups_cons
    intro key member _
    obtain ⟨roleId, _, ofRole⟩ := List.mem_flatMap.mp member
    exact flat.mapped roleId key ofRole
  rw [resolvedGroups, show (getContext snapshot guildId isGuildOwner isBotOwner
    memberRoleIds).groups = snapshot.groups from rfl, found]
  cases snapshot.groups memberKey <;> simp

theorem can_flat (flat : Flat snapshot) (notBotOwner : actor.userId ∉ botOwnerIds)
    (notGuildOwner : actor.isGuildOwner = false) {claim : JsString} {required : Claim}
    (parsed : Claim.parse claim = .ok required) :
    can botOwnerIds snapshot actor claim = defaultDecision snapshot required := by
  rw [can, explain, resolve, if_neg (by simp [getContext, notBotOwner, notGuildOwner]), parsed,
    defaultDecision]
  simp only [bind, Except.bind]
  rw [resolvedGroups_flat flat]
  cases found : snapshot.groups memberKey with
  | none => rfl
  | some group =>
      rw [Option.toList_some, List.foldlM_cons,
        walkGroup_flat flat (getContext snapshot actor.guildId actor.isGuildOwner
          (actor.userId ∈ botOwnerIds) actor.discordRoleIds) rfl found]
      dsimp only
      generalize matchGrants group.key required group.grants
        { Walk.start with visited := [group.key] } = walked
      cases walked <;> rfl

theorem can_owner (snapshot : Snapshot) {actor : PermissionActor}
    (owner : actor.isGuildOwner = true) (claim : JsString) :
    can botOwnerIds snapshot actor claim = .ok true := by
  rw [can, explain, resolve, if_pos (by simp [getContext, owner])]
  rfl

theorem matchGrants_error (groupKey : JsString) (required : Claim) {grants : List Grant}
    (malformed : ∃ grant ∈ grants, ¬ IsClaim grant.claim) (walk : Walk) :
    ∃ failure, matchGrants groupKey required grants walk = .error failure := by
  induction grants generalizing walk with
  | nil => simp at malformed
  | cons first rest ih =>
      unfold matchGrants
      cases parsed : Claim.parse first.claim with
      | error failure => exact ⟨failure, rfl⟩
      | ok held =>
          obtain ⟨grant, member, isMalformed⟩ := malformed
          rcases List.mem_cons.mp member with rfl | later
          · exact absurd ⟨held, parsed⟩ isMalformed
          · exact ih ⟨grant, later, isMalformed⟩ _

/-- A check throws exactly when a grant of the default group is no claim. -/
theorem can_isOk (flat : Flat snapshot) (notBotOwner : actor.userId ∉ botOwnerIds)
    (notGuildOwner : actor.isGuildOwner = false) {claim : JsString} {required : Claim}
    (parsed : Claim.parse claim = .ok required) :
    (∃ allowed, can botOwnerIds snapshot actor claim = .ok allowed) ↔
      ∀ group ∈ snapshot.groups memberKey, ∀ grant ∈ group.grants, IsClaim grant.claim := by
  rw [can_flat flat notBotOwner notGuildOwner parsed, defaultDecision]
  cases found : snapshot.groups memberKey with
  | none => simp
  | some group =>
      simp only [Option.mem_def, Option.some.injEq, forall_eq']
      constructor
      · rintro ⟨allowed, answers⟩ grant member
        by_contra malformed
        obtain ⟨failure, failed⟩ := matchGrants_error group.key required
          ⟨grant, member, malformed⟩ { Walk.start with visited := [group.key] }
        rw [failed] at answers
        simp [Except.map] at answers
      · intro formed
        have initial : Summarises { Walk.start with visited := [group.key] } [] :=
          ⟨highest_nil _, highest_nil _⟩
        obtain ⟨walk, matched, _⟩ := matchGrants_ok formed initial
        exact ⟨_, by rw [matched]; rfl⟩

/-! Histories of mutations. Whatever was read of the tables may be what a check gets, since contexts
are cached. -/

structure GrantState where
  database : Database
  groups : List (JsString × List ResolvedGroup)
  mappings : List (JsString × Record (List JsString))

def GrantState.start (database : Database) : GrantState :=
  { database, groups := [], mappings := [] }

inductive GrantAction
  | mutate (guildId : JsString) (mutation : Mutation)
  | readGroups (guildId : JsString)
  | readMappings (guildId : JsString)

def grantStep (state : GrantState) : GrantAction → Option GrantState
  | .mutate guildId mutation =>
      some { state with database := (mutate state.database guildId mutation).getD state.database }
  | .readGroups guildId =>
      some { state with
        groups := state.groups ++ [(guildId, loadResolvedGroups state.database guildId)] }
  | .readMappings guildId =>
      some { state with
        mappings := state.mappings ++ [(guildId, buildRoleToGroupsMap state.database guildId)] }

/-- A context that a check may get: each part from the tables or read earlier. -/
inductive Available (state : GrantState) (guildId : JsString) : Snapshot → Prop
  | intro {groups : List ResolvedGroup} {mappings : Record (List JsString)} :
      groups = loadResolvedGroups state.database guildId ∨ (guildId, groups) ∈ state.groups →
      mappings = buildRoleToGroupsMap state.database guildId ∨
        (guildId, mappings) ∈ state.mappings →
      Available state guildId (snapshotOf groups mappings)

/-- Every check of a claim is answered. -/
def Answers (botOwnerIds : List JsString) (state : GrantState) : Prop :=
  ∀ (actor : PermissionActor) (claim : JsString) (snapshot : Snapshot),
    IsClaim claim → Available state actor.guildId snapshot →
    ∃ allowed, can botOwnerIds snapshot actor claim = .ok allowed

/-- What is stored for the default group of a guild is a claim. -/
def StoresClaims (state : GrantState) : GrantAction → Prop
  | .mutate guildId (.setClaimGrant groupKey claim _) =>
      groupKey ≠ memberKey ∨ findGroupByKey state.database guildId groupKey = none ∨ IsClaim claim
  | _ => True

instance (state : GrantState) (action : GrantAction) : Decidable (StoresClaims state action) := by
  unfold StoresClaims
  split <;> infer_instance

/-! What a mutation does to the grants. -/

def Mutation.grants (guildId : JsString) (group : PermissionGroup) (rows : List ClaimGrant) :
    Mutation → List ClaimGrant
  | .setClaimGrant _ claim effect =>
      upsertGrant rows { guildId, groupId := group.id, claim, effect }
  | .removeClaimGrant _ claim =>
      rows.filter fun row => ¬ (row.groupId = group.id ∧ row.claim = claim)
  | _ => rows

theorem mutate_some {database next : Database} {guildId : JsString} {mutation : Mutation}
    (mutated : mutate database guildId mutation = some next) :
    ∃ group, findGroupByKey database guildId mutation.groupKey = some group ∧
      next.groups = database.groups ∧
      next.grants = mutation.grants guildId group database.grants := by
  unfold mutate at mutated
  split at mutated
  · simp at mutated
  · rename_i group found
    refine ⟨group, found, ?_⟩
    cases mutation <;> obtain rfl := Option.some.inj mutated
    case assignGroup =>
        unfold assign
        split <;> exact ⟨rfl, rfl⟩
    all_goals exact ⟨rfl, rfl⟩

theorem mutate_isSome {database : Database} {guildId : JsString} (mutation : Mutation)
    {group : PermissionGroup}
    (found : findGroupByKey database guildId mutation.groupKey = some group) :
    (mutate database guildId mutation).isSome := by
  unfold mutate
  split
  · rename_i missing
    rw [missing] at found
    simp at found
  · cases mutation <;> rfl

theorem mem_upsertGrant {rows : List ClaimGrant} {row other : ClaimGrant}
    (member : other ∈ upsertGrant rows row) :
    (other.groupId = row.groupId ∧ other.claim = row.claim) ∨ other ∈ rows := by
  unfold upsertGrant at member
  split at member
  · obtain ⟨before, beforeMember, rfl⟩ := List.mem_map.mp member
    by_cases same : (before.groupId, before.claim) = (row.groupId, row.claim)
    · rw [if_pos same]
      exact Or.inl (Prod.mk.inj same)
    · rw [if_neg same]
      exact Or.inr beforeMember
  · rcases List.mem_append.mp member with earlier | isNew
    · exact Or.inr earlier
    · rw [List.mem_singleton.mp isNew]
      exact Or.inl ⟨rfl, rfl⟩

theorem upsertGrant_stores (rows : List ClaimGrant) (row : ClaimGrant) :
    ∃ stored ∈ upsertGrant rows row, stored.groupId = row.groupId ∧ stored.claim = row.claim := by
  unfold upsertGrant
  split
  · rename_i present
    obtain ⟨before, member, same⟩ := List.mem_map.mp present
    refine ⟨_, List.mem_map_of_mem member, ?_⟩
    rw [if_pos same]
    exact Prod.mk.inj same
  · exact ⟨row, List.mem_append_right _ List.mem_cons_self, rfl, rfl⟩

theorem mem_grants {guildId : JsString} {group : PermissionGroup} {rows : List ClaimGrant}
    {mutation : Mutation} {row : ClaimGrant} (member : row ∈ mutation.grants guildId group rows) :
    row ∈ rows ∨ row.groupId = group.id ∧
      ∃ groupKey effect, mutation = .setClaimGrant groupKey row.claim effect := by
  cases mutation with
  | setClaimGrant groupKey claim effect =>
      rcases mem_upsertGrant member with ⟨sameGroup, rfl⟩ | earlier
      · exact Or.inr ⟨sameGroup, groupKey, effect, rfl⟩
      · exact Or.inl earlier
  | removeClaimGrant groupKey claim => exact Or.inl (List.mem_of_mem_filter member)
  | assignGroup discordRoleId groupKey => exact Or.inl member
  | unassignGroup discordRoleId groupKey => exact Or.inl member

/-! The invariant: the grants of the default groups are claims, in the tables and in whatever was
read of them. -/

def DefaultsFormed (database : Database) : Prop :=
  ∀ group ∈ database.groups, group.key = memberKey →
    ∀ row ∈ database.grants, row.groupId = group.id → IsClaim row.claim

structure Wholesome (rows : List PermissionGroup) (state : GrantState) : Prop where
  sameGroups : state.database.groups = rows
  formed : DefaultsFormed state.database
  groups : ∀ read ∈ state.groups, ∃ earlier : Database, earlier.groups = rows ∧
    DefaultsFormed earlier ∧ read.2 = loadResolvedGroups earlier read.1
  mappings : ∀ read ∈ state.mappings, ∃ earlier : Database, earlier.groups = rows ∧
    read.2 = buildRoleToGroupsMap earlier read.1

theorem findGroupByKey_some {database : Database} {guildId key : JsString}
    {group : PermissionGroup} (found : findGroupByKey database guildId key = some group) :
    group ∈ findByGuild database guildId ∧ group.key = key :=
  ⟨List.mem_of_find?_eq_some found, by simpa using List.find?_some found⟩

theorem defaultsFormed_mutate {database next : Database} {guildId : JsString} {mutation : Mutation}
    (formed : DefaultsFormed database) (mutated : mutate database guildId mutation = some next)
    (stores : ∀ claim effect, mutation = .setClaimGrant memberKey claim effect →
      IsClaim claim) : DefaultsFormed next := by
  obtain ⟨target, found, sameGroups, grants⟩ := mutate_some mutated
  intro group isGroup isDefault row member ofGroup
  rw [sameGroups] at isGroup
  rw [grants] at member
  rcases mem_grants member with earlier | ⟨ofTarget, groupKey, effect, isSet⟩
  · exact formed group isGroup isDefault row earlier ofGroup
  · obtain ⟨isTarget, sameKey⟩ := findGroupByKey_some found
    have same : target = group := List.inj_on_of_nodup_map database.distinctIds
      (mem_findByGuild.mp isTarget).1 isGroup (ofTarget.symm.trans ofGroup)
    rw [isSet, same, isDefault] at sameKey
    simp only [Mutation.groupKey] at sameKey
    exact stores row.claim effect (by rw [isSet, ← sameKey])

theorem wholesome_step {rows : List PermissionGroup} {state next : GrantState}
    {action : GrantAction} (wholesome : Wholesome rows state) (stores : StoresClaims state action)
    (taken : grantStep state action = some next) : Wholesome rows next := by
  cases action with
  | mutate guildId mutation =>
      obtain rfl := Option.some.inj taken
      cases mutated : mutate state.database guildId mutation with
      | none => simpa [mutated] using wholesome
      | some database =>
          obtain ⟨target, found, sameGroups, _⟩ := mutate_some mutated
          refine ⟨sameGroups.trans wholesome.sameGroups, ?_, wholesome.groups, wholesome.mappings⟩
          refine defaultsFormed_mutate wholesome.formed mutated ?_
          rintro claim effect rfl
          rcases stores with other | missing | isClaim
          · exact absurd rfl other
          · exact absurd (missing.symm.trans found) (by simp)
          · exact isClaim
  | readGroups guildId =>
      obtain rfl := Option.some.inj taken
      refine { wholesome with groups := fun read member => ?_ }
      rcases List.mem_append.mp member with earlier | isNew
      · exact wholesome.groups read earlier
      · rw [List.mem_singleton.mp isNew]
        exact ⟨state.database, wholesome.sameGroups, wholesome.formed, rfl⟩
  | readMappings guildId =>
      obtain rfl := Option.some.inj taken
      refine { wholesome with mappings := fun read member => ?_ }
      rcases List.mem_append.mp member with earlier | isNew
      · exact wholesome.mappings read earlier
      · rw [List.mem_singleton.mp isNew]
        exact ⟨state.database, wholesome.sameGroups, rfl⟩

theorem available_flat {rows : List PermissionGroup} {state : GrantState}
    (wholesome : Wholesome rows state) {guildId : JsString} {snapshot : Snapshot}
    (available : Available state guildId snapshot) :
    Flat snapshot ∧
      ∀ group ∈ snapshot.groups memberKey, ∀ grant ∈ group.grants, IsClaim grant.claim := by
  obtain ⟨isGroups, isMappings⟩ := available
  rename_i groups mappings
  obtain ⟨first, firstGroups, formed, rfl⟩ : ∃ earlier : Database, earlier.groups = rows ∧
      DefaultsFormed earlier ∧ groups = loadResolvedGroups earlier guildId := by
    rcases isGroups with rfl | member
    · exact ⟨state.database, wholesome.sameGroups, wholesome.formed, rfl⟩
    · exact wholesome.groups _ member
  obtain ⟨second, secondGroups, rfl⟩ : ∃ earlier : Database, earlier.groups = rows ∧
      mappings = buildRoleToGroupsMap earlier guildId := by
    rcases isMappings with rfl | member
    · exact ⟨state.database, wholesome.sameGroups, rfl⟩
    · exact wholesome.mappings _ member
  refine ⟨flat_snapshotOf (secondGroups.trans firstGroups.symm) guildId, ?_⟩
  intro group found grant isGrant
  obtain ⟨member, isDefault⟩ := Record.ofList_find found
  obtain ⟨row, isRow, rfl⟩ := List.mem_map.mp member
  obtain ⟨stored, ofGroup, rfl⟩ := List.mem_map.mp isGrant
  obtain ⟨isStored, sameGroup⟩ := List.mem_filter.mp ofGroup
  exact formed row (mem_findByGuild.mp isRow).1 isDefault stored isStored (by simpa using sameGroup)

theorem answers_of_wholesome {rows : List PermissionGroup} (botOwnerIds : List JsString)
    {state : GrantState} (wholesome : Wholesome rows state) : Answers botOwnerIds state := by
  rintro actor claim snapshot ⟨required, parsed⟩ available
  by_cases owner : actor.userId ∈ botOwnerIds ∨ actor.isGuildOwner = true
  · refine ⟨true, ?_⟩
    rw [can, explain, resolve, if_pos (by simpa [getContext] using owner)]
    rfl
  · obtain ⟨notBotOwner, notGuildOwner⟩ := not_or.mp owner
    obtain ⟨flat, formed⟩ := available_flat wholesome available
    exact (can_isOk flat notBotOwner (by simpa using notGuildOwner) parsed).mpr formed

/-- The default group of a guild as a check finds it. -/
theorem default_found {database : Database} {guildId : JsString} {group : PermissionGroup}
    (isLive : group ∈ findByGuild database guildId) (isDefault : group.key = memberKey) :
    (loadSnapshot database guildId).groups memberKey = some (resolveGroup database group) := by
  have member : resolveGroup database group ∈ loadResolvedGroups database guildId :=
    List.mem_map_of_mem isLive
  have present : ((loadSnapshot database guildId).groups (resolveGroup database group).key).isSome :=
    Record.ofList_isSome member
  have sameKey : (resolveGroup database group).key = memberKey := isDefault
  rw [sameKey] at present
  obtain ⟨resolved, found⟩ := Option.isSome_iff_exists.mp present
  obtain ⟨isResolved, ofKey⟩ := Record.ofList_find found
  obtain ⟨other, otherLive, rfl⟩ := List.mem_map.mp isResolved
  have live := mem_findByGuild.mp isLive
  have liveOther := mem_findByGuild.mp otherLive
  have same : other = group := by
    apply List.inj_on_of_nodup_map database.distinctKeys liveOther.1 live.1
    rw [live.2.1, liveOther.2.1, isDefault]
    exact congrArg (Prod.mk guildId) ofKey
  rw [← same]
  exact found

theorem stores_of_answers {botOwnerIds : List JsString} {state next : GrantState}
    {action : GrantAction} (taken : grantStep state action = some next)
    (answers : Answers botOwnerIds next) : StoresClaims state action := by
  cases action with
  | readGroups guildId => trivial
  | readMappings guildId => trivial
  | mutate guildId mutation =>
      cases mutation with
      | removeClaimGrant groupKey claim => trivial
      | assignGroup discordRoleId groupKey => trivial
      | unassignGroup discordRoleId groupKey => trivial
      | setClaimGrant groupKey claim effect =>
          by_contra stores
          simp only [StoresClaims, not_or, not_not] at stores
          obtain ⟨isDefault, isFound, malformed⟩ := stores
          obtain ⟨group, found⟩ := Option.ne_none_iff_exists'.mp isFound
          obtain ⟨database, mutated⟩ := Option.isSome_iff_exists.mp
            (mutate_isSome (.setClaimGrant groupKey claim effect) found)
          obtain ⟨target, isTarget, sameGroups, grants⟩ := mutate_some mutated
          obtain rfl := Option.some.inj (isTarget.symm.trans found)
          obtain ⟨isLive, sameKey⟩ := findGroupByKey_some isTarget
          have isLiveLater : target ∈ findByGuild database guildId := by
            rw [findByGuild, sameGroups]
            exact isLive
          have isDefaultGroup := default_found isLiveLater (sameKey.trans isDefault)
          obtain ⟨userId, notOwner⟩ := Infinite.exists_notMem_finset botOwnerIds.toFinset
          rw [List.mem_toFinset] at notOwner
          obtain rfl := Option.some.inj taken
          rw [mutated] at answers
          have answered := answers
            { userId, guildId, discordRoleIds := [], isGuildOwner := false } (js "a")
            (loadSnapshot database guildId) ⟨_, by rfl⟩ (.intro (Or.inl rfl) (Or.inl rfl))
          have formed := (can_isOk (flat_loadSnapshot database guildId) notOwner rfl (by rfl)).mp answered
            _ isDefaultGroup
          obtain ⟨stored, member, ofGroup, isClaim⟩ := upsertGrant_stores state.database.grants
            { guildId, groupId := target.id, claim, effect }
          have sameClaim : stored.claim = claim := isClaim
          refine malformed ?_
          rw [← sameClaim]
          refine formed (grantOf stored) (List.mem_map_of_mem (List.mem_filter.mpr ⟨?_, ?_⟩))
          · rw [grants]
            exact member
          · simpa using ofGroup

/-- Checks of claims never throw exactly when no mutation stores, for the default group of a guild,
a text that is no claim. -/
theorem answers_iff (botOwnerIds : List JsString) (database : Database)
    (formed : ∀ row ∈ database.grants, IsClaim row.claim) (actions : List GrantAction) :
    Always grantStep (Answers botOwnerIds) (.start database) actions ↔
      Guarded grantStep StoresClaims (.start database) actions := by
  have initial : Wholesome database.groups (.start database) := by
    refine ⟨rfl, ?_, ?_, ?_⟩
    · intro group _ _ row member _
      exact formed row member
    · simp [GrantState.start]
    · simp [GrantState.start]
  exact always_iff_guarded grantStep (fun _ => answers_of_wholesome botOwnerIds)
    (fun _ _ _ => wholesome_step) (fun _ _ _ _ => stores_of_answers) initial actions

theorem answers_otherGroup :
    Always grantStep (Answers []) (.start mappedGuild)
      [.mutate (js "g") (.setClaimGrant (js "admin") (js "Spawn vehicles!") .GRANT),
        .mutate (js "g") (.setClaimGrant memberKey (js " Tickets.* ") .GRANT),
        .readGroups (js "g")] :=
  (answers_iff [] mappedGuild mappedGuild_formed _).mpr (by decide +kernel)

/-- One grant that is no claim, and the members of the guild are no longer answered. -/
theorem malformed_grant_throws :
    ¬ ∀ (botOwnerIds : List JsString) (database : Database),
      (∀ row ∈ database.grants, IsClaim row.claim) →
      ∀ actions, Always grantStep (Answers botOwnerIds) (.start database) actions := by
  intro all
  have always := all [] mappedGuild mappedGuild_formed
    [.mutate (js "g") (.setClaimGrant memberKey (js "tickets:create") .GRANT)]
  have answers := (always.2 _ rfl).head
  obtain ⟨allowed, answered⟩ := answers administrator (js "tickets.create") _
    ⟨_, by rfl⟩ (.intro (Or.inl rfl) (Or.inl rfl))
  have thrown : can [] (loadSnapshot
      ((mutate mappedGuild (js "g")
        (.setClaimGrant memberKey (js "tickets:create") .GRANT)).getD mappedGuild) (js "g"))
      administrator (js "tickets.create") = .error (.invalidClaim (js "tickets:create")) := by
    decide +kernel
  exact absurd (answered.symm.trans thrown) (by simp)

end Permissions
