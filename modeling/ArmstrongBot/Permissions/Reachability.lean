import ArmstrongBot.Library.BoundedWalk
import ArmstrongBot.Permissions.Resolver

/-! The walk of `PermissionResolver` against the inheritance graph: which groups it meets, and what
their grants decide. -/

namespace Permissions

open JsText Precedence Relation

/-- `resolve` with the maximum that its caller asks for. -/
def resolveWithin (context : PermissionContext) (claim : JsString) (maxDepth : Nat) :
    Except PermissionError PermissionDecision :=
  if context.isBotOwner || context.isGuildOwner then
    .ok { allowed := true, reasons := [.global] }
  else do
    let required ← Claim.parse claim
    let walk ← (resolvedGroups context).foldlM (fun walk group =>
      walkGroup context required maxDepth (maxDepth + 1) group walk) Walk.start
    return decision walk

theorem resolve_eq (context : PermissionContext) (claim : JsString) :
    resolve context claim = resolveWithin context claim defaultMaxDepth := rfl

def IsOwner (context : PermissionContext) : Prop :=
  context.isBotOwner = true ∨ context.isGuildOwner = true

/-- The keys of the default groups and of the groups of the actor's roles. -/
def IsStartingKey (context : PermissionContext) (key : JsString) : Prop :=
  key ∈ context.defaultGroupKeys ∨
    ∃ roleId ∈ context.memberRoleIds, ∃ keys, context.roleToGroups roleId = some keys ∧ key ∈ keys

def Starts (context : PermissionContext) (group : ResolvedGroup) : Prop :=
  ∃ key, IsStartingKey context key ∧ context.groups key = some group

def presentParents (context : PermissionContext) (group : ResolvedGroup) : List ResolvedGroup :=
  group.parents.filterMap context.groups

def Inherits (context : PermissionContext) (group parent : ResolvedGroup) : Prop :=
  parent ∈ presentParents context group

/-- The groups that the actor has, directly or by inheritance. -/
def HasGroup (context : PermissionContext) (group : ResolvedGroup) : Prop :=
  ∃ start, Starts context start ∧ ReflTransGen (Inherits context) start group

/-- A covering grant of one of the actor's groups, by the claim that it holds. -/
def HoldsGrant (context : PermissionContext) (required : Claim) (effect : ClaimEffect)
    (held : Claim) : Prop :=
  ∃ group, HasGroup context group ∧ ∃ grant ∈ group.grants, grant.effect = effect ∧
    Claim.parse grant.claim = .ok held ∧ held.covers required = true

def Keyed (context : PermissionContext) : Prop :=
  ∀ key group, context.groups key = some group → group.key = key

def GrantsParse (context : PermissionContext) : Prop :=
  ∀ key group, context.groups key = some group →
    ∀ grant ∈ group.grants, ∃ held, Claim.parse grant.claim = .ok held

variable {context : PermissionContext} {required : Claim} {maxDepth left : Nat}
  {group : ResolvedGroup} {walk next : Walk}

theorem mem_resolvedGroups : group ∈ resolvedGroups context ↔ Starts context group := by
  rw [resolvedGroups, (List.mergeSort_perm _ _).mem_iff, List.mem_filterMap]
  apply exists_congr
  intro key
  apply and_congr_left
  intro _
  rw [resolveGroupKeys, List.mem_eraseDups, List.mem_append, List.mem_flatMap, IsStartingKey]
  apply or_congr_right
  apply exists_congr
  intro roleId
  apply and_congr_right
  intro _
  cases context.roleToGroups roleId <;> simp

/-! What the matches of one group leave alone. -/

theorem onMatch_visited (walk : Walk) (found : MatchResult) :
    (onMatch walk found).visited = walk.visited := by
  unfold onMatch
  cases found.effect <;> rfl

theorem matchGrants_visited {groupKey : JsString} {grants : List Grant}
    (matched : matchGrants groupKey required grants walk = .ok next) :
    next.visited = walk.visited := by
  induction grants generalizing walk with
  | nil =>
      obtain rfl : walk = next := Except.ok.inj matched
      rfl
  | cons grant rest ih =>
      rw [matchGrants] at matched
      split at matched
      · cases matched
      · rw [ih matched]
        split
        · exact onMatch_visited _ _
        · rfl

theorem matchGrants_throws {groupKey : JsString} {grants : List Grant} {failure : PermissionError}
    (matched : matchGrants groupKey required grants walk = .error failure) :
    ∃ grant ∈ grants, failure = .invalidClaim grant.claim ∧
      Claim.parse grant.claim = .error failure := by
  induction grants generalizing walk with
  | nil => cases matched
  | cons grant rest ih =>
      rw [matchGrants] at matched
      split at matched
      · rename_i parsed
        obtain rfl := Except.error.inj matched
        refine ⟨grant, List.mem_cons_self, ?_, parsed⟩
        rw [Claim.parse] at parsed
        split at parsed
        · cases parsed
        · exact (Except.error.inj parsed).symm
      · obtain ⟨other, member, failed⟩ := ih matched
        exact ⟨other, List.mem_cons_of_mem grant member, failed⟩

/-! The walk follows that of the graph. -/

theorem foldlM_visitParent (visit : ResolvedGroup → Walk → Except PermissionError Walk)
    (keys : List JsString) (walk : Walk) :
    keys.foldlM (visitParent context visit) walk =
      (keys.filterMap context.groups).foldlM (fun walk parent => visit parent walk) walk := by
  induction keys generalizing walk with
  | nil => rfl
  | cons key rest ih =>
      rw [List.foldlM_cons, visitParent]
      cases found : context.groups key with
      | none =>
          rw [List.filterMap_cons_none found]
          exact ih walk
      | some parent =>
          rw [List.filterMap_cons_some found, List.foldlM_cons]
          exact congrArg _ (funext fun later => ih later)

/-- How a walk may end when that of the graph comes to `walked`. -/
def Tracks (context : PermissionContext) (maxDepth : Nat) (walked : Option (List JsString)) :
    Except PermissionError Walk → Prop
  | .ok walk => walked = some walk.visited
  | .error failure =>
      (∃ groupKey, failure = .maxDepthExceeded maxDepth groupKey) ∧ walked = none ∨
        (∃ raw, failure = .invalidClaim raw) ∧ ¬ GrantsParse context

theorem tracks_foldlM {visit : Walk → ResolvedGroup → Except PermissionError Walk}
    {visitKeys : List JsString → ResolvedGroup → Option (List JsString)}
    {groups : List ResolvedGroup}
    (tracks : ∀ group ∈ groups, ∀ walk,
      Tracks context maxDepth (visitKeys walk.visited group) (visit walk group)) (walk : Walk) :
    Tracks context maxDepth (groups.foldlM visitKeys walk.visited) (groups.foldlM visit walk) := by
  induction groups generalizing walk with
  | nil => rfl
  | cons group rest ih =>
      have first := tracks group List.mem_cons_self walk
      rw [List.foldlM_cons, List.foldlM_cons]
      cases visited : visit walk group with
      | error failure =>
          rw [visited] at first
          rcases first with ⟨exceeded, none⟩ | malformed
          · exact .inl ⟨exceeded, by rw [none]; rfl⟩
          · exact .inr malformed
      | ok later =>
          rw [visited] at first
          rw [show visitKeys walk.visited group = some later.visited from first]
          exact ih (fun other member => tracks other (List.mem_cons_of_mem group member)) later

theorem tracks_walkGroup (present : ∃ key, context.groups key = some group) (walk : Walk) :
    Tracks context maxDepth
      (BoundedWalk.walk ResolvedGroup.key (presentParents context) left walk.visited group)
      (walkGroup context required maxDepth left group walk) := by
  induction left generalizing group walk with
  | zero => exact .inl ⟨⟨group.key, rfl⟩, rfl⟩
  | succ left ih =>
      rw [walkGroup, BoundedWalk.walk]
      split
      · rfl
      · simp only [bind, Except.bind]
        cases matched : matchGrants group.key required group.grants
            { walk with visited := group.key :: walk.visited } with
        | error failure =>
            obtain ⟨grant, isGrant, isFailure, malformed⟩ := matchGrants_throws matched
            refine .inr ⟨⟨_, isFailure⟩, fun parse => ?_⟩
            obtain ⟨key, found⟩ := present
            obtain ⟨held, parsed⟩ := parse key group found grant isGrant
            rw [parsed] at malformed
            cases malformed
        | ok later =>
            simp only
            rw [foldlM_visitParent, ← show later.visited = group.key :: walk.visited from
              matchGrants_visited matched]
            refine tracks_foldlM (fun parent isParent walk => ih ?_ walk) later
            obtain ⟨key, _, found⟩ := List.mem_filterMap.mp isParent
            exact ⟨key, found⟩

def walkRoots (context : PermissionContext) (required : Claim) (maxDepth : Nat) :
    Except PermissionError Walk :=
  (resolvedGroups context).foldlM (fun walk group =>
    walkGroup context required maxDepth (maxDepth + 1) group walk) Walk.start

def walkKeys (context : PermissionContext) (maxDepth : Nat) : Option (List JsString) :=
  (resolvedGroups context).foldlM
    (BoundedWalk.walk ResolvedGroup.key (presentParents context) (maxDepth + 1)) []

theorem tracks_walkRoots (context : PermissionContext) (required : Claim) (maxDepth : Nat) :
    Tracks context maxDepth (walkKeys context maxDepth) (walkRoots context required maxDepth) := by
  refine tracks_foldlM (fun group isRoot walk => tracks_walkGroup ?_ walk) Walk.start
  obtain ⟨key, _, found⟩ := mem_resolvedGroups.mp isRoot
  exact ⟨key, found⟩

/-! The matches of the groups that were walked are collected. -/

theorem mem_matches {groupKey : JsString} {grants : List Grant} {result : MatchResult} :
    result ∈ matchesOf groupKey required grants ↔ ∃ grant ∈ grants, ∃ held,
      Claim.parse grant.claim = .ok held ∧ held.covers required = true ∧
      result = { effect := grant.effect, specificity := held.specificity, groupKey
                 matchedClaim := grant.claim } := by
  rw [matchesOf, List.mem_filterMap]
  apply exists_congr
  intro grant
  apply and_congr_right
  intro _
  cases Claim.parse grant.claim with
  | error failure => simp
  | ok held =>
      by_cases covers : held.covers required = true
      · simp only [covers, if_true, Option.some.injEq, Except.ok.injEq, exists_eq_left', true_and]
        exact eq_comm
      · simp [covers]

def Collects (context : PermissionContext) (required : Claim) (walk : Walk) : Prop :=
  ∃ found, Summarises walk found ∧ ∀ result, result ∈ found ↔
    ∃ group, context.groups group.key = some group ∧ group.key ∈ walk.visited ∧
      result ∈ matchesOf group.key required group.grants

theorem collects_start : Collects context required Walk.start :=
  ⟨[], ⟨highest_nil _, highest_nil _⟩, by simp [Walk.start]⟩

theorem Collects.matchGrants (parse : GrantsParse context)
    (own : context.groups group.key = some group)
    (collects : Collects context required walk)
    (matched : matchGrants group.key required group.grants
      { walk with visited := group.key :: walk.visited } = .ok next) :
    Collects context required next := by
  obtain ⟨found, summary, isFound⟩ := collects
  have visited : Summarises { walk with visited := group.key :: walk.visited } found :=
    ⟨summary.grant, summary.deny⟩
  obtain ⟨later, sameMatched, summaryLater⟩ :=
    @matchGrants_ok group.key required _ (parse group.key group own) _ _ visited
  rw [matched] at sameMatched
  obtain rfl := Except.ok.inj sameMatched
  refine ⟨_, summaryLater, fun result => ?_⟩
  rw [List.mem_append, isFound, matchGrants_visited matched]
  constructor
  · rintro (⟨other, isOther, member, isMatch⟩ | isMatch)
    · exact ⟨other, isOther, List.mem_cons_of_mem _ member, isMatch⟩
    · exact ⟨group, own, List.mem_cons_self, isMatch⟩
  · rintro ⟨other, isOther, member, isMatch⟩
    rcases List.mem_cons.mp member with same | before
    · rw [same, own] at isOther
      obtain rfl := Option.some.inj isOther
      exact .inr isMatch
    · exact .inl ⟨other, isOther, before, isMatch⟩

theorem collects_foldlM {visit : Walk → ResolvedGroup → Except PermissionError Walk}
    {groups : List ResolvedGroup}
    (keeps : ∀ group ∈ groups, ∀ walk next, Collects context required walk →
      visit walk group = .ok next → Collects context required next) :
    ∀ walk next, Collects context required walk → groups.foldlM visit walk = .ok next →
      Collects context required next := by
  induction groups with
  | nil =>
      intro walk next collects done
      obtain rfl : walk = next := Except.ok.inj done
      exact collects
  | cons group rest ih =>
      intro walk next collects done
      rw [List.foldlM_cons] at done
      cases visited : visit walk group with
      | error failure =>
          rw [visited] at done
          cases done
      | ok middle =>
          rw [visited] at done
          exact ih (fun other member => keeps other (List.mem_cons_of_mem group member)) middle next
            (keeps group List.mem_cons_self walk middle collects visited) done

theorem Keyed.own (keyed : Keyed context) {key : JsString}
    (found : context.groups key = some group) :
    context.groups group.key = some group := by
  rw [keyed key group found]
  exact found

theorem Keyed.parent (keyed : Keyed context) {parent : ResolvedGroup}
    (isParent : parent ∈ presentParents context group) :
    context.groups parent.key = some parent := by
  obtain ⟨key, _, found⟩ := List.mem_filterMap.mp isParent
  exact keyed.own found

theorem collects_walkGroup (keyed : Keyed context) (parse : GrantsParse context) :
    ∀ {group walk next}, context.groups group.key = some group → Collects context required walk →
      walkGroup context required maxDepth left group walk = .ok next →
      Collects context required next := by
  induction left with
  | zero =>
      intro group walk next own collects walked
      cases walked
  | succ left ih =>
      intro group walk next own collects walked
      rw [walkGroup] at walked
      split at walked
      · obtain rfl := Except.ok.inj walked
        exact collects
      · simp only [bind, Except.bind] at walked
        split at walked
        · cases walked
        · rename_i later matched
          rw [foldlM_visitParent] at walked
          refine collects_foldlM (fun parent isParent walk next collects walked =>
            ih (keyed.parent isParent) collects walked) later next ?_ walked
          exact collects.matchGrants parse own matched

theorem HasGroup.own (keyed : Keyed context) (has : HasGroup context group) :
    context.groups group.key = some group := by
  obtain ⟨start, ⟨key, _, found⟩, reached⟩ := has
  rcases ReflTransGen.cases_tail reached with rfl | ⟨_, _, isParent⟩
  · exact keyed.own found
  · exact keyed.parent isParent

theorem adds_walkKeys {walked : List JsString} (done : walkKeys context maxDepth = some walked) :
    BoundedWalk.Adds ResolvedGroup.key (presentParents context) maxDepth (resolvedGroups context)
      [] walked :=
  BoundedWalk.adds_foldlM
    (fun root _ walked later done => BoundedWalk.adds_walk walked later root done) _ _ done

theorem near_of_walked (keyed : Keyed context) {walked : List JsString}
    (done : walkKeys context maxDepth = some walked)
    (own : context.groups group.key = some group) (member : group.key ∈ walked) :
    ∃ start, Starts context start ∧
      BoundedWalk.Within (presentParents context) maxDepth start group ∧
      ∀ parent ∈ presentParents context group, parent.key ∈ walked := by
  obtain ⟨root, isRoot, other, sameKey, within, parents⟩ :=
    (adds_walkKeys done).near _ member List.not_mem_nil
  have starts := mem_resolvedGroups.mp isRoot
  have isOther := HasGroup.own keyed ⟨root, starts, within.reaches⟩
  rw [sameKey, own] at isOther
  obtain rfl := Option.some.inj isOther
  exact ⟨root, starts, within, parents⟩

theorem mem_walked (keyed : Keyed context) {walked : List JsString}
    (done : walkKeys context maxDepth = some walked) (has : HasGroup context group) :
    group.key ∈ walked := by
  obtain ⟨start, starts, reached⟩ := has
  induction reached with
  | refl => exact (adds_walkKeys done).meets start (mem_resolvedGroups.mpr starts)
  | @tail middle parent before isParent ih =>
      obtain ⟨_, _, _, parents⟩ :=
        near_of_walked keyed done (HasGroup.own keyed ⟨start, starts, before⟩) ih
      exact parents parent isParent

/-- A walk that comes to its end has met exactly the groups of the actor. -/
theorem mem_visited (keyed : Keyed context)
    (walked : walkRoots context required maxDepth = .ok walk)
    (own : context.groups group.key = some group) :
    group.key ∈ walk.visited ↔ HasGroup context group := by
  have done := tracks_walkRoots context required maxDepth
  rw [walked] at done
  constructor
  · intro visited
    obtain ⟨start, starts, within, _⟩ := near_of_walked keyed done own visited
    exact ⟨start, starts, within.reaches⟩
  · exact mem_walked keyed done

theorem resolveWithin_split (notOwner : ¬ IsOwner context) (claim : JsString) :
    resolveWithin context claim maxDepth =
      Claim.parse claim >>= fun required => walkRoots context required maxDepth >>= fun walk =>
        pure (decision walk) := by
  have global : (context.isBotOwner || context.isGuildOwner) = false := by
    simpa [IsOwner] using notOwner
  rw [resolveWithin, global]
  rfl

theorem resolveWithin_ok (notOwner : ¬ IsOwner context) {claim : JsString}
    {decided : PermissionDecision} :
    resolveWithin context claim maxDepth = .ok decided ↔
      ∃ required, Claim.parse claim = .ok required ∧
        ∃ walk, walkRoots context required maxDepth = .ok walk ∧ decision walk = decided := by
  rw [resolveWithin_split notOwner]
  cases Claim.parse claim with
  | error failure => simp [bind, Except.bind]
  | ok required =>
      cases walked : walkRoots context required maxDepth with
      | error failure => simp [bind, Except.bind, walked]
      | ok walk => simp [bind, Except.bind, walked, pure, Except.pure]

/-- The decision on the grants of the actor's groups: the most specific one that covers the claim
is a GRANT, and no DENY ties with it. -/
def GrantsPrevail (context : PermissionContext) (required : Claim) : Prop :=
  ∃ held, HoldsGrant context required .GRANT held ∧
    ∀ other, HoldsGrant context required .DENY other → other.specificity < held.specificity

theorem decision_prevails (keyed : Keyed context) (parse : GrantsParse context)
    (walked : walkRoots context required maxDepth = .ok walk) :
    (decision walk).allowed = true ↔ GrantsPrevail context required := by
  obtain ⟨found, summary, isFound⟩ : Collects context required walk := by
    refine collects_foldlM (fun group isRoot walk next collects walked =>
      collects_walkGroup keyed parse ?_ collects walked) Walk.start walk collects_start walked
    obtain ⟨key, _, isGroup⟩ := mem_resolvedGroups.mp isRoot
    exact keyed.own isGroup
  have isHeld : ∀ effect result, result ∈ found ∧ result.effect = effect →
      ∃ held, HoldsGrant context required effect held ∧ held.specificity = result.specificity := by
    rintro effect result ⟨member, isEffect⟩
    obtain ⟨group, own, visited, isMatch⟩ := (isFound result).mp member
    obtain ⟨grant, isGrant, held, parsed, covers, rfl⟩ := mem_matches.mp isMatch
    have has := (mem_visited keyed walked own).mp visited
    exact ⟨held, ⟨group, has, grant, isGrant, isEffect, parsed, covers⟩, rfl⟩
  have isMatched : ∀ effect held, HoldsGrant context required effect held →
      ∃ result, (result ∈ found ∧ result.effect = effect) ∧
        result.specificity = held.specificity := by
    rintro effect held ⟨group, has, grant, isGrant, isEffect, parsed, covers⟩
    have own := has.own keyed
    refine ⟨{ effect := grant.effect, specificity := held.specificity, groupKey := group.key
              matchedClaim := grant.claim }, ⟨(isFound _).mpr ⟨group, own, ?_, ?_⟩, isEffect⟩, rfl⟩
    · exact (mem_visited keyed walked own).mpr has
    · exact mem_matches.mpr ⟨grant, isGrant, held, parsed, covers, rfl⟩
  rw [decision_allowed summary]
  constructor
  · rintro ⟨result, isGrant, outranks⟩
    obtain ⟨held, isHeldGrant, same⟩ := isHeld .GRANT result isGrant
    refine ⟨held, isHeldGrant, fun other isDeny => ?_⟩
    obtain ⟨denial, denies, sameDenial⟩ := isMatched .DENY other isDeny
    rw [same, ← sameDenial]
    exact outranks denial denies
  · rintro ⟨held, isGrant, outranks⟩
    obtain ⟨result, grants, same⟩ := isMatched .GRANT held isGrant
    refine ⟨result, grants, fun denial denies => ?_⟩
    obtain ⟨other, isDeny, sameDenial⟩ := isHeld .DENY denial denies
    rw [same, ← sameDenial]
    exact outranks other isDeny

end Permissions
