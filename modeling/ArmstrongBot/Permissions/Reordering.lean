import ArmstrongBot.Permissions.Reachability

/-! Contexts that differ in the order of what they list, and in the priorities of their groups. -/

namespace Permissions

open JsText Relation

structure SameGroup (group other : ResolvedGroup) : Prop where
  key : other.key = group.key
  grants : other.grants.Perm group.grants
  parents : other.parents.Perm group.parents

structure Reorders (context other : PermissionContext) : Prop where
  isBotOwner : other.isBotOwner = context.isBotOwner
  isGuildOwner : other.isGuildOwner = context.isGuildOwner
  memberRoleIds : other.memberRoleIds.Perm context.memberRoleIds
  roleToGroups : other.roleToGroups = context.roleToGroups
  defaultGroupKeys : other.defaultGroupKeys.Perm context.defaultGroupKeys
  groups : ∀ key, Option.Rel SameGroup (context.groups key) (other.groups key)

variable {context other : PermissionContext} {required : Claim} {maxDepth : Nat}
  {group parent : ResolvedGroup}

theorem SameGroup.symm {group other : ResolvedGroup} (same : SameGroup group other) :
    SameGroup other group :=
  ⟨same.key.symm, same.grants.symm, same.parents.symm⟩

theorem Reorders.refl (context : PermissionContext) : Reorders context context where
  isBotOwner := rfl
  isGuildOwner := rfl
  memberRoleIds := .refl _
  roleToGroups := rfl
  defaultGroupKeys := .refl _
  groups key := by
    cases context.groups key with
    | none => exact .none
    | some group => exact .some ⟨rfl, .refl _, .refl _⟩

theorem Reorders.symm (reorders : Reorders context other) : Reorders other context where
  isBotOwner := reorders.isBotOwner.symm
  isGuildOwner := reorders.isGuildOwner.symm
  memberRoleIds := reorders.memberRoleIds.symm
  roleToGroups := reorders.roleToGroups.symm
  defaultGroupKeys := reorders.defaultGroupKeys.symm
  groups key := by
    have related := reorders.groups key
    generalize context.groups key = before at related
    generalize other.groups key = after at related
    cases related with
    | none => exact .none
    | some same => exact .some same.symm

theorem Reorders.find (reorders : Reorders context other) {key : JsString}
    (found : context.groups key = some group) :
    ∃ same, other.groups key = some same ∧ SameGroup group same := by
  have related := reorders.groups key
  rw [found] at related
  cases isOther : other.groups key with
  | none =>
      rw [isOther] at related
      cases related
  | some same =>
      rw [isOther] at related
      cases related with
      | some isSame => exact ⟨same, rfl, isSame⟩

theorem Reorders.isOwner (reorders : Reorders context other) : IsOwner other ↔ IsOwner context := by
  rw [IsOwner, IsOwner, reorders.isBotOwner, reorders.isGuildOwner]

theorem Reorders.keyed (reorders : Reorders context other) (keyed : Keyed context) :
    Keyed other := by
  intro key group found
  obtain ⟨same, isSame, sameGroup⟩ := reorders.symm.find found
  rw [← keyed key same isSame]
  exact sameGroup.key.symm

theorem Reorders.grantsParse (reorders : Reorders context other) (parse : GrantsParse context) :
    GrantsParse other := by
  intro key group found grant isGrant
  obtain ⟨same, isSame, sameGroup⟩ := reorders.symm.find found
  exact parse key same isSame grant (sameGroup.grants.mem_iff.mpr isGrant)

theorem Reorders.starts (reorders : Reorders context other) (starts : Starts context group) :
    ∃ same, Starts other same ∧ SameGroup group same := by
  obtain ⟨key, isStarting, found⟩ := starts
  obtain ⟨same, isSame, sameGroup⟩ := reorders.find found
  refine ⟨same, ⟨key, ?_, isSame⟩, sameGroup⟩
  rcases isStarting with isDefault | ⟨roleId, isRole, ofRole⟩
  · exact .inl (reorders.defaultGroupKeys.mem_iff.mpr isDefault)
  · rw [← reorders.roleToGroups] at ofRole
    exact .inr ⟨roleId, reorders.memberRoleIds.mem_iff.mpr isRole, ofRole⟩

theorem Reorders.inherits (reorders : Reorders context other) {same : ResolvedGroup}
    (sameGroup : SameGroup group same) (isParent : parent ∈ presentParents context group) :
    ∃ sameParent ∈ presentParents other same, SameGroup parent sameParent := by
  obtain ⟨key, isKey, found⟩ := List.mem_filterMap.mp isParent
  obtain ⟨sameParent, isSame, related⟩ := reorders.find found
  exact ⟨sameParent,
    List.mem_filterMap.mpr ⟨key, sameGroup.parents.mem_iff.mpr isKey, isSame⟩, related⟩

theorem Reorders.hasGroup (reorders : Reorders context other) (has : HasGroup context group) :
    ∃ same, HasGroup other same ∧ SameGroup group same := by
  obtain ⟨start, starts, reached⟩ := has
  induction reached with
  | refl =>
      obtain ⟨same, isStart, sameGroup⟩ := reorders.starts starts
      exact ⟨same, ⟨same, isStart, .refl⟩, sameGroup⟩
  | tail before isParent ih =>
      obtain ⟨same, ⟨root, isStart, toSame⟩, sameGroup⟩ := ih
      obtain ⟨sameParent, isSameParent, related⟩ := reorders.inherits sameGroup isParent
      exact ⟨sameParent, ⟨root, isStart, toSame.tail isSameParent⟩, related⟩

theorem Reorders.holdsGrant (reorders : Reorders context other) {effect : ClaimEffect}
    {held : Claim}
    (holds : HoldsGrant context required effect held) : HoldsGrant other required effect held := by
  obtain ⟨group, has, grant, isGrant, covers⟩ := holds
  obtain ⟨same, hasSame, sameGroup⟩ := reorders.hasGroup has
  exact ⟨same, hasSame, grant, sameGroup.grants.mem_iff.mpr isGrant, covers⟩

theorem Reorders.grantsPrevail (reorders : Reorders context other) :
    GrantsPrevail other required ↔ GrantsPrevail context required := by
  constructor
  · rintro ⟨held, isGrant, outranks⟩
    exact ⟨held, reorders.symm.holdsGrant isGrant,
      fun denial isDeny => outranks denial (reorders.holdsGrant isDeny)⟩
  · rintro ⟨held, isGrant, outranks⟩
    exact ⟨held, reorders.holdsGrant isGrant,
      fun denial isDeny => outranks denial (reorders.symm.holdsGrant isDeny)⟩

theorem Reorders.decides (reorders : Reorders context other) (keyed : Keyed context)
    (parse : GrantsParse context) (notOwner : ¬ IsOwner context) {claim : JsString}
    {decided otherDecided : PermissionDecision}
    (returned : resolveWithin context claim maxDepth = .ok decided)
    (otherReturned : resolveWithin other claim maxDepth = .ok otherDecided) :
    otherDecided.allowed = decided.allowed := by
  obtain ⟨required, parsed, walk, walked, rfl⟩ := (resolveWithin_ok notOwner).mp returned
  obtain ⟨otherRequired, otherParsed, otherWalk, otherWalked, rfl⟩ :=
    (resolveWithin_ok (mt reorders.isOwner.mp notOwner)).mp otherReturned
  rw [parsed] at otherParsed
  obtain rfl := Except.ok.inj otherParsed
  have decides := decision_prevails keyed parse walked
  have otherDecides :=
    decision_prevails (reorders.keyed keyed) (reorders.grantsParse parse) otherWalked
  rw [reorders.grantsPrevail] at otherDecides
  exact Bool.eq_iff_iff.mpr (otherDecides.trans decides.symm)

/-- Whenever the resolver decides, the grants of the groups that the actor has decide, and no order
and no priority has a say in it. -/
theorem resolve_decides (keyed : Keyed context) (parse : GrantsParse context)
    (notOwner : ¬ IsOwner context) {claim : JsString} {decided : PermissionDecision}
    (returned : resolveWithin context claim maxDepth = .ok decided) :
    (∃ required, Claim.parse claim = .ok required ∧
      (decided.allowed = true ↔ GrantsPrevail context required)) ∧
    ∀ other otherDecided, Reorders context other →
      resolveWithin other claim maxDepth = .ok otherDecided →
      otherDecided.allowed = decided.allowed := by
  refine ⟨?_, fun other otherDecided reorders otherReturned =>
    reorders.decides keyed parse notOwner returned otherReturned⟩
  obtain ⟨required, parsed, walk, walked, rfl⟩ := (resolveWithin_ok notOwner).mp returned
  exact ⟨required, parsed, decision_prevails keyed parse walked⟩

/-! Two groups that inherit from each other: a wildcard is granted by one, and one of its claims
denied by the other. -/

def cyclicGroups : List ResolvedGroup :=
  [{ key := js "staff", priority := 2
     grants := [{ claim := js "tickets.*", effect := .GRANT }], parents := [js "guest"] },
    { key := js "guest", priority := 1
      grants := [{ claim := js "tickets.close", effect := .DENY }], parents := [js "staff"] }]

def contextOfGroups (groups : List ResolvedGroup) (defaultGroupKeys : List JsString) :
    PermissionContext :=
  { guildId := js "g", isGuildOwner := false, isBotOwner := false, memberRoleIds := []
    roleToGroups := .empty, defaultGroupKeys, groups := .ofList ResolvedGroup.key groups }

theorem keyed_contextOfGroups (groups : List ResolvedGroup) (defaultGroupKeys : List JsString) :
    Keyed (contextOfGroups groups defaultGroupKeys) :=
  fun _ _ found => (Record.ofList_find found).2

theorem grantsParse_contextOfGroups {groups : List ResolvedGroup} (defaultGroupKeys : List JsString)
    (parse : ∀ group ∈ groups, ∀ grant ∈ group.grants, (Claim.parse grant.claim).isOk = true) :
    GrantsParse (contextOfGroups groups defaultGroupKeys) := by
  intro key group found grant isGrant
  have isOk := parse group (Record.ofList_find found).1 grant isGrant
  cases parsed : Claim.parse grant.claim with
  | error failure =>
      rw [parsed] at isOk
      cases isOk
  | ok held => exact ⟨held, rfl⟩

theorem resolve_decides_cyclic :
    (∃ required, Claim.parse (js "tickets.close") = .ok required ∧
      (false = true ↔ GrantsPrevail (contextOfGroups cyclicGroups [js "staff"]) required)) ∧
    ∀ other otherDecided, Reorders (contextOfGroups cyclicGroups [js "staff"]) other →
      resolveWithin other (js "tickets.close") 8 = .ok otherDecided → otherDecided.allowed = false :=
  resolve_decides (keyed_contextOfGroups _ _) (grantsParse_contextOfGroups _ (by decide +kernel))
    (by unfold IsOwner; decide +kernel)
    (show resolveWithin (contextOfGroups cyclicGroups [js "staff"]) (js "tickets.close") 8 =
        .ok { allowed := false, reasons := [.group (js "guest") (js "tickets.close") .DENY] } by
      decide +kernel)

end Permissions
