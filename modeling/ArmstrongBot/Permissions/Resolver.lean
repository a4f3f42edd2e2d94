import ArmstrongBot.Permissions.Claim
import ArmstrongBot.Library.Precedence

/-! `PermissionResolver`: the walk over the groups of a context and the decision it ends in. -/

namespace Permissions

open JsText Precedence

inductive ClaimEffect
  | GRANT
  | DENY
  deriving DecidableEq

structure Grant where
  claim : JsString
  effect : ClaimEffect
  deriving DecidableEq

structure ResolvedGroup where
  key : JsString
  priority : Int
  grants : List Grant
  parents : List JsString
  deriving DecidableEq

structure PermissionContext where
  guildId : JsString
  isGuildOwner : Bool
  isBotOwner : Bool
  memberRoleIds : List JsString
  roleToGroups : Record (List JsString)
  defaultGroupKeys : List JsString
  groups : Record ResolvedGroup

inductive DecisionReason
  | global
  | group (groupKey matchedClaim : JsString) (effect : ClaimEffect)
  | fallback
  deriving DecidableEq

structure PermissionDecision where
  allowed : Bool
  reasons : List DecisionReason
  deriving DecidableEq

structure MatchResult where
  effect : ClaimEffect
  specificity : Nat
  groupKey : JsString
  matchedClaim : JsString
  deriving DecidableEq

def defaultMaxDepth : Nat := 8

/-- The groups walked so far and the most specific match of either effect. -/
structure Walk where
  visited : List JsString
  bestGrant : Option MatchResult
  bestDeny : Option MatchResult
  deriving DecidableEq

def Walk.start : Walk := { visited := [], bestGrant := none, bestDeny := none }

def onMatch (walk : Walk) (found : MatchResult) : Walk :=
  match found.effect with
  | .GRANT => { walk with bestGrant := better MatchResult.specificity walk.bestGrant found }
  | .DENY => { walk with bestDeny := better MatchResult.specificity walk.bestDeny found }

/-- The grants of a group that cover the required claim, one after the other. -/
def matchGrants (groupKey : JsString) (required : Claim) :
    List Grant → Walk → Except PermissionError Walk
  | [], walk => .ok walk
  | grant :: rest, walk =>
      match Claim.parse grant.claim with
      | .error failure => .error failure
      | .ok held =>
          matchGrants groupKey required rest
            (if held.covers required then
              onMatch walk { effect := grant.effect, specificity := held.specificity, groupKey,
                             matchedClaim := grant.claim }
            else walk)

/-- The step of the loop over the parents: a parent that the record lacks is passed over. -/
def visitParent (context : PermissionContext)
    (visit : ResolvedGroup → Walk → Except PermissionError Walk) (walk : Walk)
    (parentKey : JsString) : Except PermissionError Walk :=
  match context.groups parentKey with
  | some parent => visit parent walk
  | none => .ok walk

/-- `walkGroup`, by the levels that are left before the depth exceeds its maximum. -/
def walkGroup (context : PermissionContext) (required : Claim) (maxDepth : Nat) :
    Nat → ResolvedGroup → Walk → Except PermissionError Walk
  | 0, group, _ => .error (.maxDepthExceeded maxDepth group.key)
  | left + 1, group, walk =>
      if group.key ∈ walk.visited then .ok walk
      else do
        let matched ← matchGrants group.key required group.grants
          { walk with visited := group.key :: walk.visited }
        group.parents.foldlM
          (visitParent context (walkGroup context required maxDepth left)) matched

/-- The default groups and those of the member's roles, each once. -/
def resolveGroupKeys (context : PermissionContext) : List JsString :=
  (context.defaultGroupKeys ++ context.memberRoleIds.flatMap fun roleId =>
    (context.roleToGroups roleId).getD []).eraseDups

def resolvedGroups (context : PermissionContext) : List ResolvedGroup :=
  ((resolveGroupKeys context).filterMap context.groups).mergeSort fun first second =>
    decide (second.priority ≤ first.priority)

def decision (walk : Walk) : PermissionDecision :=
  match walk.bestDeny, walk.bestGrant with
  | some deny, some grant =>
      if grant.specificity ≤ deny.specificity then
        { allowed := false, reasons := [.group deny.groupKey deny.matchedClaim .DENY] }
      else { allowed := true, reasons := [.group grant.groupKey grant.matchedClaim .GRANT] }
  | some deny, none =>
      { allowed := false, reasons := [.group deny.groupKey deny.matchedClaim .DENY] }
  | none, some grant =>
      { allowed := true, reasons := [.group grant.groupKey grant.matchedClaim .GRANT] }
  | none, none => { allowed := false, reasons := [.fallback] }

def resolve (context : PermissionContext) (claim : JsString) :
    Except PermissionError PermissionDecision :=
  if context.isBotOwner || context.isGuildOwner then
    .ok { allowed := true, reasons := [.global] }
  else do
    let required ← Claim.parse claim
    let walk ← (resolvedGroups context).foldlM (fun walk group =>
      walkGroup context required defaultMaxDepth (defaultMaxDepth + 1) group walk) Walk.start
    return decision walk

/-! What the walk keeps: the best matches are the highest of the matches met. -/

def matchesOf (groupKey : JsString) (required : Claim) (grants : List Grant) : List MatchResult :=
  grants.filterMap fun grant =>
    match Claim.parse grant.claim with
    | .error _ => none
    | .ok held =>
        if held.covers required then
          some { effect := grant.effect, specificity := held.specificity, groupKey,
                 matchedClaim := grant.claim }
        else none

def ofEffect (effect : ClaimEffect) (found : List MatchResult) : List MatchResult :=
  found.filter fun result => result.effect = effect

structure Summarises (walk : Walk) (found : List MatchResult) : Prop where
  grant : Highest MatchResult.specificity (ofEffect .GRANT found) walk.bestGrant
  deny : Highest MatchResult.specificity (ofEffect .DENY found) walk.bestDeny

theorem ofEffect_append (effect : ClaimEffect) (found : List MatchResult) (result : MatchResult) :
    ofEffect effect (found ++ [result]) =
      if result.effect = effect then ofEffect effect found ++ [result] else ofEffect effect found := by
  by_cases same : result.effect = effect <;> simp [ofEffect, List.filter_append, same]

theorem Summarises.onMatch {walk : Walk} {found : List MatchResult}
    (summarises : Summarises walk found) (result : MatchResult) :
    Summarises (onMatch walk result) (found ++ [result]) := by
  constructor
  · rw [ofEffect_append]
    cases effect : result.effect with
    | GRANT => simpa [Permissions.onMatch, effect] using summarises.grant.better _ result
    | DENY => simpa [Permissions.onMatch, effect] using summarises.grant
  · rw [ofEffect_append]
    cases effect : result.effect with
    | GRANT => simpa [Permissions.onMatch, effect] using summarises.deny
    | DENY => simpa [Permissions.onMatch, effect] using summarises.deny.better _ result

theorem matchGrants_ok {groupKey : JsString} {required : Claim} {grants : List Grant}
    (formed : ∀ grant ∈ grants, ∃ held, Claim.parse grant.claim = .ok held) {walk : Walk}
    {found : List MatchResult} (summarises : Summarises walk found) :
    ∃ next, matchGrants groupKey required grants walk = .ok next ∧
      Summarises next (found ++ matchesOf groupKey required grants) := by
  induction grants generalizing walk found with
  | nil => exact ⟨walk, rfl, by simpa [matchesOf] using summarises⟩
  | cons grant rest ih =>
      obtain ⟨held, parsed⟩ := formed grant List.mem_cons_self
      have later := fun other member => formed other (List.mem_cons_of_mem grant member)
      simp only [matchGrants, parsed]
      by_cases covers : held.covers required = true
      · simp only [covers, if_true]
        obtain ⟨next, walked, summary⟩ := ih later (summarises.onMatch
          { effect := grant.effect, specificity := held.specificity, groupKey
            matchedClaim := grant.claim })
        refine ⟨next, walked, ?_⟩
        simpa [matchesOf, parsed, covers] using summary
      · simp only [covers]
        obtain ⟨next, walked, summary⟩ := ih later summarises
        refine ⟨next, walked, ?_⟩
        simpa [matchesOf, parsed, covers] using summary

/-- The decision allows exactly when a match that grants outranks every match that denies. -/
theorem decision_allowed {walk : Walk} {found : List MatchResult}
    (summarises : Summarises walk found) :
    (decision walk).allowed = true ↔ Prevails MatchResult.specificity
      {result | result ∈ found ∧ result.effect = .GRANT}
      {result | result ∈ found ∧ result.effect = .DENY} := by
  have compared := prevails_of_highest MatchResult.specificity summarises.grant summarises.deny
  simp only [ofEffect, List.mem_filter, decide_eq_true_eq] at compared
  rw [compared]
  unfold decision
  cases walk.bestDeny <;> cases walk.bestGrant
  · simp
  · simp
  · simp
  · simp only [Option.mem_def, Option.some.injEq, exists_eq_left', forall_eq']
    split
    · rename_i bound
      simpa using bound
    · rename_i bound
      simpa using bound

end Permissions
