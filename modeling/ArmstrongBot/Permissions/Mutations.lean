import ArmstrongBot.Permissions.Repositories

/-! The four mutations of `PermissionService` on the rows. -/

namespace Permissions

open JsText

def findGroupByKey (database : Database) (guildId key : JsString) : Option PermissionGroup :=
  (findByGuild database guildId).find? fun group => group.key = key

/-- `ClaimGrantRepository.upsert` on the rows of the table. -/
def upsertGrant (rows : List ClaimGrant) (row : ClaimGrant) : List ClaimGrant :=
  if (row.groupId, row.claim) ∈ rows.map fun other => (other.groupId, other.claim) then
    rows.map fun other =>
      if (other.groupId, other.claim) = (row.groupId, row.claim) then
        { other with effect := row.effect }
      else other
  else rows ++ [row]

theorem upsertGrant_distinct {rows : List ClaimGrant} (row : ClaimGrant)
    (distinct : (rows.map fun other => (other.groupId, other.claim)).Nodup) :
    ((upsertGrant rows row).map fun other => (other.groupId, other.claim)).Nodup := by
  unfold upsertGrant
  split
  · have sameKeys : (rows.map fun other =>
        if (other.groupId, other.claim) = (row.groupId, row.claim) then
          { other with effect := row.effect }
        else other).map (fun other => (other.groupId, other.claim)) =
          rows.map fun other => (other.groupId, other.claim) := by
      rw [List.map_map]
      apply List.map_congr_left
      intro other _
      simp only [Function.comp]
      split <;> rfl
    rwa [sameKeys]
  · rename_i fresh
    rw [List.map_append]
    apply List.nodup_append.mpr
    refine ⟨distinct, by simp, ?_⟩
    intro key member other isRow
    rw [List.mem_singleton.mp isRow]
    rintro rfl
    exact fresh member

def withGrants (database : Database) (grants : List ClaimGrant)
    (distinct : (grants.map fun grant => (grant.groupId, grant.claim)).Nodup) : Database :=
  { database with grants, distinctGrants := distinct }

def upsertClaimGrant (database : Database) (row : ClaimGrant) : Database :=
  withGrants database (upsertGrant database.grants row)
    (upsertGrant_distinct row database.distinctGrants)

def removeGrant (database : Database) (groupId claim : JsString) : Database :=
  withGrants database (database.grants.filter fun row => ¬ (row.groupId = groupId ∧ row.claim = claim))
    (database.distinctGrants.sublist (List.filter_sublist.map _))

/-- `RoleMappingRepository.assign`, for a group that exists. -/
def assign (database : Database) (mapping : RoleGroupMapping)
    (exists_ : mapping.groupId ∈ database.groups.map PermissionGroup.id) : Database :=
  if present : mapping ∈ database.mappings then database
  else
    { database with
      mappings := database.mappings ++ [mapping]
      distinctMappings := by
        apply List.nodup_append.mpr
        refine ⟨database.distinctMappings, by simp, ?_⟩
        intro earlier member newest isNewest
        rw [List.mem_singleton.mp isNewest]
        rintro rfl
        exact present member
      mapped := by
        intro other member
        rcases List.mem_append.mp member with earlier | newest
        · exact database.mapped other earlier
        · rw [List.mem_singleton.mp newest]
          exact exists_ }

def unassign (database : Database) (mapping : RoleGroupMapping) : Database :=
  { database with
    mappings := database.mappings.filter fun other => other ≠ mapping
    distinctMappings := database.distinctMappings.filter _
    mapped := fun other member => database.mapped other (List.mem_of_mem_filter member) }

inductive Mutation
  | setClaimGrant (groupKey claim : JsString) (effect : ClaimEffect)
  | removeClaimGrant (groupKey claim : JsString)
  | assignGroup (discordRoleId groupKey : JsString)
  | unassignGroup (discordRoleId groupKey : JsString)
  deriving DecidableEq

def Mutation.groupKey : Mutation → JsString
  | .setClaimGrant groupKey _ _ => groupKey
  | .removeClaimGrant groupKey _ => groupKey
  | .assignGroup _ groupKey => groupKey
  | .unassignGroup _ groupKey => groupKey

/-- What the call does when the group is not found: an error, or nothing. -/
def Mutation.missing (guildId : JsString) : Mutation → Except PermissionError Unit
  | .setClaimGrant groupKey _ _ => .error (.grantGroupNotFound groupKey)
  | .assignGroup _ groupKey => .error (.groupNotFound groupKey guildId)
  | .removeClaimGrant _ _ | .unassignGroup _ _ => .ok ()

def Mutation.event : Mutation → JsString
  | .setClaimGrant _ _ _ | .removeClaimGrant _ _ => js "permission.claim.grant_changed"
  | .assignGroup _ _ => js "permission.group.assigned"
  | .unassignGroup _ _ => js "permission.group.unassigned"

theorem findGroupByKey_mem {database : Database} {guildId key : JsString} {group : PermissionGroup}
    (found : findGroupByKey database guildId key = some group) :
    group.id ∈ database.groups.map PermissionGroup.id :=
  List.mem_map_of_mem (mem_findByGuild.mp (List.mem_of_find?_eq_some found)).1

def mutate (database : Database) (guildId : JsString) (mutation : Mutation) : Option Database :=
  match found : findGroupByKey database guildId mutation.groupKey with
  | none => none
  | some group =>
      match mutation with
      | .setClaimGrant _ claim effect =>
          some (upsertClaimGrant database { guildId, groupId := group.id, claim, effect })
      | .removeClaimGrant _ claim => some (removeGrant database group.id claim)
      | .assignGroup discordRoleId _ =>
          some (assign database { guildId, discordRoleId, groupId := group.id }
            (findGroupByKey_mem found))
      | .unassignGroup discordRoleId _ =>
          some (unassign database { guildId, discordRoleId, groupId := group.id })

end Permissions
