import ArmstrongBot.Permissions.Resolver
import ArmstrongBot.Library.Calendar

/-! The permission tables, and the context that the facade assembles from the repositories. -/

namespace Permissions

open JsText Precedence
open Calendar (Timestamp)

structure PermissionGroup where
  id : JsString
  guildId : JsString
  key : JsString
  priority : Int
  deletedAt : Option Timestamp
  deriving DecidableEq

structure ClaimGrant where
  guildId : JsString
  groupId : JsString
  claim : JsString
  effect : ClaimEffect
  deriving DecidableEq

structure RoleGroupMapping where
  guildId : JsString
  discordRoleId : JsString
  groupId : JsString
  deriving DecidableEq

structure GroupInheritance where
  guildId : JsString
  childGroupId : JsString
  parentGroupId : JsString
  deriving DecidableEq

/-- The four tables under their constraints. An id is a cuid that the database makes up and a key
is the name a group is given (`createTierDefaults`), so no key is an id. Role ids are snowflakes:
neither they nor ids are names of properties that every object inherits. -/
structure Database where
  groups : List PermissionGroup
  grants : List ClaimGrant
  mappings : List RoleGroupMapping
  inheritances : List GroupInheritance
  distinctIds : (groups.map PermissionGroup.id).Nodup
  distinctKeys : (groups.map fun group => (group.guildId, group.key)).Nodup
  distinctGrants : (grants.map fun grant => (grant.groupId, grant.claim)).Nodup
  distinctMappings : mappings.Nodup
  distinctInheritances :
    (inheritances.map fun link => (link.childGroupId, link.parentGroupId)).Nodup
  mapped : ∀ mapping ∈ mappings, mapping.groupId ∈ groups.map PermissionGroup.id
  inherited : ∀ link ∈ inheritances, link.parentGroupId ∈ groups.map PermissionGroup.id
  named : ∀ group ∈ groups, group.key ∉ groups.map PermissionGroup.id

/-- `GroupRepository.findByGuild`: the groups that are not soft-deleted. -/
def findByGuild (database : Database) (guildId : JsString) : List PermissionGroup :=
  database.groups.filter fun group => group.guildId = guildId ∧ group.deletedAt = none

def grantOf (row : ClaimGrant) : Grant := { claim := row.claim, effect := row.effect }

/-- A group with its grants and its parents, each parent by its id. -/
def resolveGroup (database : Database) (group : PermissionGroup) : ResolvedGroup :=
  { key := group.key
    priority := group.priority
    grants := (database.grants.filter fun row => row.groupId = group.id).map grantOf
    parents := (database.inheritances.filter fun link => link.childGroupId = group.id).map
      GroupInheritance.parentGroupId }

def loadResolvedGroups (database : Database) (guildId : JsString) : List ResolvedGroup :=
  (findByGuild database guildId).map (resolveGroup database)

def addMapping (result : Record (List JsString)) (mapping : RoleGroupMapping) :
    Record (List JsString) :=
  result.set mapping.discordRoleId ((result mapping.discordRoleId).getD [] ++ [mapping.groupId])

def buildRoleToGroupsMap (database : Database) (guildId : JsString) : Record (List JsString) :=
  (database.mappings.filter fun mapping => mapping.guildId = guildId).foldl addMapping Record.empty

structure Snapshot where
  roleToGroups : Record (List JsString)
  defaultGroupKeys : List JsString
  groups : Record ResolvedGroup

def memberKey : JsString := js "member"

/-- The two results that `loadSnapshot` waits for, put together. -/
def snapshotOf (resolvedGroups : List ResolvedGroup) (roleToGroups : Record (List JsString)) :
    Snapshot :=
  { roleToGroups
    defaultGroupKeys := [memberKey]
    groups := Record.ofList ResolvedGroup.key resolvedGroups }

/-- `PermissionCacheFacade.loadSnapshot`, both queries at one moment. -/
def loadSnapshot (database : Database) (guildId : JsString) : Snapshot :=
  snapshotOf (loadResolvedGroups database guildId) (buildRoleToGroupsMap database guildId)

structure PermissionActor where
  userId : JsString
  guildId : JsString
  discordRoleIds : List JsString
  isGuildOwner : Bool
  deriving DecidableEq

/-- The ids of the setting `PERMISSION_BOT_OWNER_IDS`. -/
def botOwnerIdsOf (setting : Option JsString) : List JsString :=
  ((split (unit 44) (setting.getD [])).map trim).filter fun id => id != []

def getContext (snapshot : Snapshot) (guildId : JsString) (isGuildOwner isBotOwner : Bool)
    (memberRoleIds : List JsString) : PermissionContext :=
  { guildId, isGuildOwner, isBotOwner, memberRoleIds
    roleToGroups := snapshot.roleToGroups
    defaultGroupKeys := snapshot.defaultGroupKeys
    groups := snapshot.groups }

def explain (botOwnerIds : List JsString) (snapshot : Snapshot) (actor : PermissionActor)
    (claim : JsString) : Except PermissionError PermissionDecision :=
  resolve (getContext snapshot actor.guildId actor.isGuildOwner (actor.userId ∈ botOwnerIds)
    actor.discordRoleIds) claim

def can (botOwnerIds : List JsString) (snapshot : Snapshot) (actor : PermissionActor)
    (claim : JsString) : Except PermissionError Bool :=
  (explain botOwnerIds snapshot actor claim).map PermissionDecision.allowed

/-! What the lookups of a loaded snapshot find. -/

theorem mem_findByGuild {database : Database} {guildId : JsString} {group : PermissionGroup} :
    group ∈ findByGuild database guildId ↔
      group ∈ database.groups ∧ group.guildId = guildId ∧ group.deletedAt = none := by
  simp [findByGuild]

theorem foldl_addMapping {rows : List RoleGroupMapping} {result : Record (List JsString)}
    {roleId groupId : JsString} :
    groupId ∈ ((rows.foldl addMapping result) roleId).getD [] ↔
      groupId ∈ (result roleId).getD [] ∨
        ∃ mapping ∈ rows, mapping.discordRoleId = roleId ∧ mapping.groupId = groupId := by
  induction rows generalizing result with
  | nil => simp
  | cons first rest ih =>
      rw [List.foldl_cons, ih, addMapping]
      by_cases here : roleId = first.discordRoleId
      · subst here
        rw [Record.set_same, Option.getD_some, List.mem_append]
        constructor
        · rintro ((earlier | newest) | ⟨mapping, member, same⟩)
          · exact Or.inl earlier
          · exact Or.inr ⟨first, List.mem_cons_self, rfl, (List.mem_singleton.mp newest).symm⟩
          · exact Or.inr ⟨mapping, List.mem_cons_of_mem first member, same⟩
        · rintro (earlier | ⟨mapping, member, same⟩)
          · exact Or.inl (Or.inl earlier)
          · rcases List.mem_cons.mp member with rfl | later
            · exact Or.inl (Or.inr (List.mem_singleton.mpr same.2.symm))
            · exact Or.inr ⟨mapping, later, same⟩
      · rw [Record.set_other _ _ here]
        constructor
        · rintro (earlier | ⟨mapping, member, same⟩)
          · exact Or.inl earlier
          · exact Or.inr ⟨mapping, List.mem_cons_of_mem first member, same⟩
        · rintro (earlier | ⟨mapping, member, same⟩)
          · exact Or.inl earlier
          · rcases List.mem_cons.mp member with rfl | later
            · exact absurd same.1.symm here
            · exact Or.inr ⟨mapping, later, same⟩

theorem mem_buildRoleToGroupsMap {database : Database} {guildId roleId groupId : JsString} :
    groupId ∈ (buildRoleToGroupsMap database guildId roleId).getD [] ↔
      ∃ mapping ∈ database.mappings, mapping.guildId = guildId ∧
        mapping.discordRoleId = roleId ∧ mapping.groupId = groupId := by
  rw [buildRoleToGroupsMap, foldl_addMapping]
  simp [Record.empty, and_assoc]

end Permissions
