import ArmstrongBot.Permissions.Reordering

/-! When the walk of `PermissionResolver` gets too deep, whatever the order, in some order, and in
every order. -/

namespace Permissions

open JsText Relation BoundedWalk

def ExceedsDepth (context : PermissionContext) (claim : JsString) (maxDepth : Nat) : Prop :=
  ∃ groupKey, resolveWithin context claim maxDepth = .error (.maxDepthExceeded maxDepth groupKey)

/-- A chain of groups with different keys that goes from parent to parent, `links` times. -/
def HasChain (context : PermissionContext) (links : Nat) : Prop :=
  ∃ start, Starts context start ∧
    Chain ResolvedGroup.key (presentParents context) links [] start

/-- Such a chain whose last group has a present parent. -/
def HasOverlongChain (context : PermissionContext) (links : Nat) : Prop :=
  ∃ start, Starts context start ∧
    Overlong ResolvedGroup.key (presentParents context) links [] start

/-- A group of the actor that is more than `links` links from every starting group. -/
def HasRemoteGroup (context : PermissionContext) (links : Nat) : Prop :=
  ∃ group, HasGroup context group ∧
    ∀ start, Starts context start → ¬ Within (presentParents context) links start group

variable {context other : PermissionContext} {claim : JsString} {required : Claim}
  {maxDepth : Nat}

theorem HasChain.overlong (chain : HasChain context (maxDepth + 1)) :
    HasOverlongChain context maxDepth := by
  obtain ⟨start, starts, isChain⟩ := chain
  exact ⟨start, starts, isChain.overlong⟩

theorem Reorders.overlong (reorders : Reorders context other)
    (overlong : HasOverlongChain other maxDepth) : HasOverlongChain context maxDepth := by
  obtain ⟨start, starts, isOverlong⟩ := overlong
  obtain ⟨same, isStart, sameGroup⟩ := reorders.symm.starts starts
  refine ⟨same, isStart, isOverlong.transfer (fun _ _ same => same.key) ?_ sameGroup⟩
  intro group other sameGroup parent isParent
  exact reorders.symm.inherits sameGroup isParent

/-! The outcome by the walk of the keys. -/

theorem walkKeys_isSome (short : ¬ HasOverlongChain context maxDepth) :
    ∃ walked, walkKeys context maxDepth = some walked := by
  have roots : ∀ start ∈ resolvedGroups context, Starts context start :=
    fun start => mem_resolvedGroups.mp
  rw [walkKeys]
  generalize ([] : List JsString) = walked
  generalize resolvedGroups context = groups at roots
  induction groups generalizing walked with
  | nil => exact ⟨walked, rfl⟩
  | cons start rest ih =>
      have fits : ¬ Overlong ResolvedGroup.key (presentParents context) maxDepth [] start :=
        fun overlong => short ⟨start, roots start List.mem_cons_self, overlong⟩
      obtain ⟨later, visited⟩ := walk_isSome fits (List.nil_subset walked)
      rw [List.foldlM_cons, visited]
      exact ih later fun other member => roots other (List.mem_cons_of_mem start member)

theorem not_exceedsDepth (notOwner : ¬ IsOwner context)
    (short : ¬ HasOverlongChain context maxDepth) : ¬ ExceedsDepth context claim maxDepth := by
  rintro ⟨groupKey, exceeded⟩
  rw [resolveWithin_split notOwner] at exceeded
  cases parsed : Claim.parse claim with
  | error failure =>
      rw [parsed] at exceeded
      obtain rfl : failure = .maxDepthExceeded maxDepth groupKey := Except.error.inj exceeded
      rw [Claim.parse] at parsed
      split at parsed <;> cases parsed
  | ok required =>
      have tracks := tracks_walkRoots context required maxDepth
      obtain ⟨walked, isWalked⟩ := walkKeys_isSome short
      rw [parsed] at exceeded
      cases reached : walkRoots context required maxDepth with
      | ok walk => simp [bind, Except.bind, reached, pure, Except.pure] at exceeded
      | error failure =>
          obtain rfl : failure = .maxDepthExceeded maxDepth groupKey := by
            simpa [bind, Except.bind, reached] using exceeded
          rw [reached, isWalked] at tracks
          rcases tracks with ⟨_, none⟩ | ⟨⟨raw, invalid⟩, _⟩
          · cases none
          · cases invalid

theorem returns_of_walkKeys (notOwner : ¬ IsOwner context) (parse : GrantsParse context)
    (parsed : Claim.parse claim = .ok required) {walked : List JsString}
    (isWalked : walkKeys context maxDepth = some walked) :
    ∃ decided, resolveWithin context claim maxDepth = .ok decided := by
  have tracks := tracks_walkRoots context required maxDepth
  cases reached : walkRoots context required maxDepth with
  | ok walk =>
      exact ⟨decision walk,
        (resolveWithin_ok notOwner).mpr ⟨required, parsed, walk, reached, rfl⟩⟩
  | error failure =>
      rw [reached, isWalked] at tracks
      rcases tracks with ⟨_, none⟩ | ⟨_, malformed⟩
      · cases none
      · exact absurd parse malformed

theorem exceedsDepth_of_walkKeys (notOwner : ¬ IsOwner context) (parse : GrantsParse context)
    (parsed : Claim.parse claim = .ok required) (none : walkKeys context maxDepth = none) :
    ExceedsDepth context claim maxDepth := by
  have tracks := tracks_walkRoots context required maxDepth
  rw [ExceedsDepth, resolveWithin_split notOwner, parsed]
  cases reached : walkRoots context required maxDepth with
  | ok walk =>
      rw [reached, none] at tracks
      cases tracks
  | error failure =>
      rw [reached] at tracks
      rcases tracks with ⟨⟨groupKey, rfl⟩, _⟩ | ⟨_, malformed⟩
      · exact ⟨groupKey, by simp [bind, Except.bind, reached]⟩
      · exact absurd parse malformed

/-! In some order a chain that is too long is walked first. -/

theorem exists_perm_filterMap {α β : Type} [DecidableEq α] (find : α → Option β) (found : List β) :
    ∀ keys : List α, found.Perm (keys.filterMap find) →
      ∃ ordered : List α, ordered.Perm keys ∧ ordered.filterMap find = found := by
  induction found with
  | nil => exact fun keys same => ⟨keys, .refl _, same.symm.eq_nil⟩
  | cons first rest ih =>
      intro keys same
      obtain ⟨key, isKey, isFirst⟩ := List.mem_filterMap.mp (same.mem_iff.mp List.mem_cons_self)
      have split : (keys.filterMap find).Perm (first :: (keys.erase key).filterMap find) := by
        rw [← List.filterMap_cons_some isFirst]
        exact (List.perm_cons_erase isKey).filterMap find
      obtain ⟨ordered, sameKeys, isRest⟩ := ih (keys.erase key) (same.trans split).cons_inv
      exact ⟨key :: ordered, (sameKeys.cons key).trans (List.perm_cons_erase isKey).symm,
        by rw [List.filterMap_cons_some isFirst, isRest]⟩

theorem head_resolvedGroups {start : ResolvedGroup} (starts : Starts context start)
    (first : ∀ group, Starts context group → group ≠ start → group.priority < start.priority) :
    ∃ rest, resolvedGroups context = start :: rest := by
  have isRoot := mem_resolvedGroups.mpr starts
  have ordered : (resolvedGroups context).Pairwise fun first second =>
      decide (second.priority ≤ first.priority) = true := by
    refine List.pairwise_mergeSort ?_ ?_ _
    · intro first second third
      simp only [decide_eq_true_eq]
      omega
    · intro first second
      simp only [Bool.or_eq_true, decide_eq_true_eq]
      omega
  cases split : resolvedGroups context with
  | nil =>
      rw [split] at isRoot
      cases isRoot
  | cons head rest =>
      refine ⟨rest, ?_⟩
      by_contra different
      have apart : head ≠ start := fun same => different (by rw [same])
      rw [split] at isRoot ordered
      have later : start ∈ rest := (List.mem_cons.mp isRoot).resolve_left (Ne.symm apart)
      have bound := List.rel_of_pairwise_cons ordered later
      have isHead : Starts context head := mem_resolvedGroups.mp (split ▸ List.mem_cons_self)
      have lower := first head isHead apart
      simp only [decide_eq_true_eq] at bound
      omega

theorem exists_exceedsDepth (notOwner : ¬ IsOwner context) (parse : GrantsParse context)
    (parsed : Claim.parse claim = .ok required) (overlong : HasOverlongChain context maxDepth) :
    ∃ other, Reorders context other ∧ ExceedsDepth other claim maxDepth := by
  obtain ⟨start, starts, isOverlong⟩ := overlong
  obtain ⟨order, sameParents, straight⟩ := isOverlong.straight
  choose parents permuted isOrder using fun group : ResolvedGroup =>
    exists_perm_filterMap context.groups (order group) group.parents (sameParents group)
  let view (group : ResolvedGroup) : ResolvedGroup :=
    { group with parents := parents group, priority := if group = start then 1 else 0 }
  let other : PermissionContext :=
    { context with groups := fun key => (context.groups key).map view }
  have reorders : Reorders context other :=
    { Reorders.refl context with
      groups := by
        intro key
        change Option.Rel SameGroup (context.groups key) ((context.groups key).map view)
        cases context.groups key with
        | none => exact .none
        | some group => exact .some ⟨rfl, .refl _, permuted group⟩ }
  have sameNext (group : ResolvedGroup) :
      presentParents other (view group) = (order group).map view := by
    rw [← isOrder group, List.map_filterMap]
    rfl
  have isStart : Starts other (view start) := by
    obtain ⟨key, isStarting, found⟩ := starts
    exact ⟨key, isStarting, by simp [other, found]⟩
  obtain ⟨rest, roots⟩ : ∃ rest, resolvedGroups other = view start :: rest := by
    refine head_resolvedGroups isStart ?_
    rintro group ⟨key, _, found⟩ apart
    obtain ⟨before, isBefore, rfl⟩ := Option.map_eq_some_iff.mp found
    have different : before ≠ start := fun same => apart (by rw [same])
    simp [view, different]
  refine ⟨other, reorders, exceedsDepth_of_walkKeys (mt reorders.isOwner.mp notOwner)
    (reorders.grantsParse parse) parsed ?_⟩
  rw [walkKeys, roots, List.foldlM_cons,
    walk_straight (straight.map view (fun _ => rfl) sameNext)]
  rfl

/-- What is walked is within the depth of a starting group. -/
theorem exceedsDepth_of_remote (notOwner : ¬ IsOwner context) (keyed : Keyed context)
    (parse : GrantsParse context) (parsed : Claim.parse claim = .ok required)
    (remote : HasRemoteGroup context maxDepth) : ExceedsDepth context claim maxDepth := by
  obtain ⟨group, has, isRemote⟩ := remote
  refine exceedsDepth_of_walkKeys notOwner parse parsed ?_
  cases walked : walkKeys context maxDepth with
  | none => rfl
  | some keys =>
      obtain ⟨start, starts, within, _⟩ :=
        near_of_walked keyed walked (has.own keyed) (mem_walked keyed walked has)
      exact absurd within (isRemote start starts)

/-- Where no chain is too long, every order comes to the same decision. -/
theorem decides_of_short (notOwner : ¬ IsOwner context) (keyed : Keyed context)
    (parse : GrantsParse context) (parsed : Claim.parse claim = .ok required)
    (short : ¬ HasOverlongChain context maxDepth) :
    ∃ allowed, ∀ other, Reorders context other → ∃ decided,
      resolveWithin other claim maxDepth = .ok decided ∧ decided.allowed = allowed := by
  have returns (other : PermissionContext) (reorders : Reorders context other) :
      ∃ decided, resolveWithin other claim maxDepth = .ok decided := by
    obtain ⟨walked, isWalked⟩ := walkKeys_isSome (mt reorders.overlong short)
    exact returns_of_walkKeys (mt reorders.isOwner.mp notOwner) (reorders.grantsParse parse) parsed
      isWalked
  obtain ⟨decided, returned⟩ := returns context (.refl context)
  refine ⟨decided.allowed, fun other reorders => ?_⟩
  obtain ⟨otherDecided, otherReturned⟩ := returns other reorders
  exact ⟨otherDecided, otherReturned,
    reorders.decides keyed parse notOwner returned otherReturned⟩

theorem Reorders.remote (reorders : Reorders context other) (keyed : Keyed context)
    (remote : HasRemoteGroup context maxDepth) : HasRemoteGroup other maxDepth := by
  obtain ⟨group, has, isRemote⟩ := remote
  obtain ⟨same, hasSame, sameGroup⟩ := reorders.hasGroup has
  refine ⟨same, hasSame, fun start starts within => ?_⟩
  obtain ⟨sameStart, isStart, related⟩ := reorders.symm.starts starts
  obtain ⟨last, sameLast, isWithin⟩ := within.transfer
    (fun _ _ same parent isParent => reorders.symm.inherits same isParent) related
  have hasLast : HasGroup context last := ⟨sameStart, isStart, isWithin.reaches⟩
  have isLast := hasLast.own keyed
  rw [sameLast.key, sameGroup.key, has.own keyed] at isLast
  obtain rfl := Option.some.inj isLast
  exact isRemote sameStart isStart isWithin

/-- How long the chains of the graph are settles whether the depth can be exceeded: in no order, or
in some order, and in every order where a group is too far away. -/
theorem exceedsDepth_byGraph (context : PermissionContext) (maxDepth : Nat)
    (notOwner : ¬ IsOwner context) :
    (¬ HasOverlongChain context maxDepth → ∀ other, Reorders context other →
      ∀ claim, ¬ ExceedsDepth other claim maxDepth) ∧
    ∀ claim required, Claim.parse claim = .ok required → Keyed context → GrantsParse context →
      (¬ HasOverlongChain context maxDepth → ∃ allowed, ∀ other, Reorders context other →
        ∃ decided, resolveWithin other claim maxDepth = .ok decided ∧ decided.allowed = allowed) ∧
      (HasChain context (maxDepth + 1) →
        ∃ other, Reorders context other ∧ ExceedsDepth other claim maxDepth) ∧
      (HasRemoteGroup context maxDepth →
        ∀ other, Reorders context other → ExceedsDepth other claim maxDepth) := by
  refine ⟨?_, fun claim required parsed keyed parse => ⟨?_, ?_, ?_⟩⟩
  · intro short other reorders claim
    exact not_exceedsDepth (mt reorders.isOwner.mp notOwner) (mt reorders.overlong short)
  · exact decides_of_short notOwner keyed parse parsed
  · intro chain
    exact exists_exceedsDepth notOwner parse parsed chain.overlong
  · intro remote other reorders
    exact exceedsDepth_of_remote (mt reorders.isOwner.mp notOwner) (reorders.keyed keyed)
      (reorders.grantsParse parse) parsed (reorders.remote keyed remote)

theorem exceedsDepth_cyclic :
    (¬ HasOverlongChain (contextOfGroups cyclicGroups [js "staff"]) 8 →
      ∀ other, Reorders (contextOfGroups cyclicGroups [js "staff"]) other →
        ∀ claim, ¬ ExceedsDepth other claim 8) ∧
    ∀ claim required, Claim.parse claim = .ok required →
      Keyed (contextOfGroups cyclicGroups [js "staff"]) →
      GrantsParse (contextOfGroups cyclicGroups [js "staff"]) →
      (¬ HasOverlongChain (contextOfGroups cyclicGroups [js "staff"]) 8 →
        ∃ allowed, ∀ other, Reorders (contextOfGroups cyclicGroups [js "staff"]) other →
          ∃ decided, resolveWithin other claim 8 = .ok decided ∧ decided.allowed = allowed) ∧
      (HasChain (contextOfGroups cyclicGroups [js "staff"]) 9 →
        ∃ other, Reorders (contextOfGroups cyclicGroups [js "staff"]) other ∧
          ExceedsDepth other claim 8) ∧
      (HasRemoteGroup (contextOfGroups cyclicGroups [js "staff"]) 8 →
        ∀ other, Reorders (contextOfGroups cyclicGroups [js "staff"]) other →
          ExceedsDepth other claim 8) :=
  exceedsDepth_byGraph (contextOfGroups cyclicGroups [js "staff"]) 8
    (by unfold IsOwner; decide +kernel)

/-! Ten groups in a row, of which the first one also inherits from the sixth. -/

def rowKey (level : Nat) : JsString := js "g" ++ natText level

def rowGroup (level : Nat) : ResolvedGroup :=
  { key := rowKey level, priority := 0, grants := []
    parents := if level = 0 then [rowKey 1, rowKey 5] else [rowKey (level + 1)] }

def rowGroups : List ResolvedGroup := (List.range 10).map rowGroup

def ResolvedGroup.turned (group : ResolvedGroup) : ResolvedGroup :=
  { group with parents := group.parents.reverse }

theorem foldl_assign_map {view : ResolvedGroup → ResolvedGroup}
    (sameKey : ∀ group, (view group).key = group.key) (groups : List ResolvedGroup)
    (record other : Record ResolvedGroup) (same : ∀ key, other key = (record key).map view)
    (key : JsString) :
    (groups.map view).foldl (Record.assign ResolvedGroup.key) other key =
      (groups.foldl (Record.assign ResolvedGroup.key) record key).map view := by
  induction groups generalizing record other with
  | nil => exact same key
  | cons group rest ih =>
      refine ih _ _ fun asked => ?_
      by_cases here : asked = group.key
      · simp [Record.assign, Record.set, here, sameKey]
      · simp [Record.assign, Record.set, here, sameKey, same]

theorem reorders_turned (groups : List ResolvedGroup) (defaultGroupKeys : List JsString) :
    Reorders (contextOfGroups groups defaultGroupKeys)
      (contextOfGroups (groups.map ResolvedGroup.turned) defaultGroupKeys) :=
  { Reorders.refl (contextOfGroups groups defaultGroupKeys) with
    groups := by
      intro key
      have viewed := @foldl_assign_map ResolvedGroup.turned (fun _ => rfl) groups .empty .empty
        (fun _ => rfl) key
      change Option.Rel SameGroup (Record.ofList _ _ key) (Record.ofList _ _ key)
      rw [Record.ofList, Record.ofList, viewed]
      cases groups.foldl (Record.assign ResolvedGroup.key) .empty key with
      | none => exact .none
      | some group => exact .some ⟨rfl, .refl _, List.reverse_perm _⟩ }

/-- Which parent of the first group comes first makes the difference. -/
theorem parentOrder_exceedsDepth :
    ¬ ∀ (context other : PermissionContext) (claim : JsString), ¬ IsOwner context →
      Keyed context → GrantsParse context → Reorders context other →
      (ExceedsDepth context claim defaultMaxDepth ↔ ExceedsDepth other claim defaultMaxDepth) := by
  intro all
  have same := all (contextOfGroups rowGroups [rowKey 0])
    (contextOfGroups (rowGroups.map ResolvedGroup.turned) [rowKey 0]) (js "tickets.create")
    (by unfold IsOwner; decide +kernel) (keyed_contextOfGroups _ _)
    (grantsParse_contextOfGroups _ (by decide +kernel)) (reorders_turned rowGroups [rowKey 0])
  have deep : ExceedsDepth (contextOfGroups rowGroups [rowKey 0]) (js "tickets.create")
      defaultMaxDepth := ⟨rowKey 9, by decide +kernel⟩
  obtain ⟨groupKey, exceeded⟩ := same.mp deep
  have shallow : resolveWithin (contextOfGroups (rowGroups.map ResolvedGroup.turned) [rowKey 0])
      (js "tickets.create") defaultMaxDepth =
      .ok { allowed := false, reasons := [.fallback] } := by decide +kernel
  rw [shallow] at exceeded
  cases exceeded

end Permissions
