import ArmstrongBot.Permissions.ContextCache
import ArmstrongBot.Permissions.Decision

/-! Which mutations the checks after them include. -/

namespace Permissions

open JsText StepMachine Versions
open Events (getEventPolicy)

theorem mem_contexts {state : State} {loaded : Loaded} :
    loaded ∈ contexts state ↔ state.l1 = some loaded ∨ state.l2 = some loaded ∨
      loaded ∈ state.writes ∨ ∃ check ∈ state.checks, check.hit = some loaded := by
  simp [contexts]

theorem fresh_join {first second : Versions} {state : State} :
    Fresh (first.join second) state ↔ Fresh first state ∧ Fresh second state := by
  have loaders (loader : Loader) : loader.After (first.join second) ↔
      loader.After first ∧ loader.After second := by
    simp only [Loader.After, Versions.join, max_le_iff]
    grind
  simp only [Fresh, join_le, loaders]
  grind

/-- The invariant of the runs in which every mutation returns settled. -/
structure Sound (state : State) : Prop where
  fresh : Fresh state.returned state
  returned : state.returned.Le state.written
  stamps : ∀ call ∈ state.calls, call.stamp.Le state.written
  floors : ∀ check ∈ state.checks, check.floor.Le state.returned
  current : DecideCurrently state

theorem sound_start (database : Database) : Sound (State.start database) := by
  constructor
  · exact ⟨by simp [contexts, State.start], by simp [State.start]⟩
  · exact Le.refl _
  · simp [State.start]
  · simp [State.start]
  · simp [DecideCurrently, State.start]

/-- What a step has to keep, as long as no mutation returns in it. -/
theorem sound_of_kept {state next : State} (sound : Sound state)
    (cached : ∀ loaded ∈ contexts next, state.returned.Le loaded.read)
    (loader : ∀ loader ∈ next.loader, loader.After state.returned)
    (sameReturned : next.returned = state.returned) (written : state.written.Le next.written)
    (stamps : ∀ call ∈ next.calls, call.stamp.Le next.written)
    (checks : ∀ check ∈ next.checks, check.floor.Le next.returned ∧
      ∀ loaded, check.phase = .decided loaded → check.floor.Le loaded.read) : Sound next := by
  refine ⟨⟨?_, ?_⟩, ?_, stamps, fun check member => (checks check member).1,
    fun check member => (checks check member).2⟩
  · rw [sameReturned]
    exact cached
  · rw [sameReturned]
    exact loader
  · rw [sameReturned]
    exact sound.returned.trans written

theorem sound_checks {state : State} (sound : Sound state) :
    ∀ check ∈ state.checks, check.floor.Le state.returned ∧
      ∀ loaded, check.phase = .decided loaded → check.floor.Le loaded.read :=
  fun check member => ⟨sound.floors check member, sound.current check member⟩

theorem sound_invalidate {state : State} (sound : Sound state) : Sound (invalidate state) := by
  have checked := sound_checks sound
  apply sound_of_kept sound
  · intro loaded member
    simp only [mem_contexts, invalidate, reduceCtorEq, false_or] at member
    exact sound.fresh.1 loaded (mem_contexts.mpr (Or.inr member))
  · exact sound.fresh.2
  · rfl
  · exact Le.refl _
  · exact sound.stamps
  · exact checked

theorem sound_publish {state : State} (sound : Sound state) (mutation : Mutation) :
    Sound (publishChange state mutation) := by
  have queued (other : State) (otherSound : Sound other) :
      Sound { other with jobs := other.jobs + 1 } := by
    have checked := sound_checks otherSound
    apply sound_of_kept otherSound
    · exact otherSound.fresh.1
    · exact otherSound.fresh.2
    · rfl
    · exact Le.refl _
    · exact otherSound.stamps
    · exact checked
  have dispatched : Sound (if (getEventPolicy mutation.event).delivery.usesSync then
      Permissions.invalidate state else state) := by
    split
    · exact sound_invalidate sound
    · exact sound
  unfold publishChange
  simp only
  split
  · exact queued _ dispatched
  · exact dispatched

theorem sound_setCall {state : State} (sound : Sound state) {index : Nat} {call : Call}
    (found : state.calls[index]? = some call) (phase : CallPhase) :
    Sound (setCall state index { call with phase }) := by
  have checked := sound_checks sound
  apply sound_of_kept sound
  · exact sound.fresh.1
  · exact sound.fresh.2
  · rfl
  · exact Le.refl _
  · intro other member
    rcases List.mem_or_eq_of_mem_set member with earlier | rfl
    · exact sound.stamps other earlier
    · exact sound.stamps call (List.mem_of_getElem? found)
  · exact checked

theorem sound_writeRows {guildId : JsString} {state next : State} {mutation : Mutation}
    (sound : Sound state) (taken : writeRows guildId state mutation = some next) : Sound next := by
  obtain ⟨database, _, rfl⟩ := Option.map_eq_some_iff.mp taken
  have checked := sound_checks sound
  apply sound_of_kept sound
  · exact sound.fresh.1
  · exact sound.fresh.2
  · rfl
  · exact le_bump _ _
  · intro call member
    rcases List.mem_append.mp member with earlier | newest
    · exact (sound.stamps call earlier).trans (le_bump _ _)
    · rw [List.mem_singleton.mp newest]
      exact only_le _ _
  · exact checked

/-- The step that the condition is about: nothing left is older than the returning mutation. -/
theorem sound_returns {state : State} (sound : Sound state) {index : Nat} {call : Call}
    (found : state.calls[index]? = some call) (settled : Fresh call.stamp state) :
    Sound { (setCall state index { call with phase := .returned }) with
      returned := state.returned.join call.stamp } := by
  have updated := sound_setCall sound found .returned
  have below : state.returned.Le (state.returned.join call.stamp) := (join_le.mp (Le.refl _)).1
  constructor
  · exact fresh_join.mpr ⟨sound.fresh, settled⟩
  · exact join_le.mpr ⟨sound.returned, sound.stamps call (List.mem_of_getElem? found)⟩
  · exact updated.stamps
  · intro check member
    exact (sound.floors check member).trans below
  · exact sound.current

theorem sound_startCheck {state : State} (sound : Sound state) (actor : PermissionActor)
    (claim : JsString) : Sound (startCheck state actor claim) := by
  have checked := sound_checks sound
  apply sound_of_kept sound
  · intro loaded member
    apply sound.fresh.1
    simp only [mem_contexts, startCheck, List.mem_append, List.mem_singleton] at member ⊢
    rcases member with first | second | pending | ⟨check, earlier | rfl, hit⟩
    · exact Or.inl first
    · exact Or.inr (Or.inl second)
    · exact Or.inr (Or.inr (Or.inl pending))
    · exact Or.inr (Or.inr (Or.inr ⟨check, earlier, hit⟩))
    · cases cached : state.l1 <;> simp [Check.hit, cached] at hit
  · exact sound.fresh.2
  · rfl
  · exact Le.refl _
  · exact sound.stamps
  · intro check member
    rcases List.mem_append.mp member with earlier | newest
    · exact checked check earlier
    · rw [List.mem_singleton.mp newest]
      refine ⟨Le.refl _, ?_⟩
      intro loaded isDecided
      cases cached : state.l1 with
      | none => simp [cached] at isDecided
      | some entry =>
          simp only [cached, Phase.decided.injEq] at isDecided
          subst isDecided
          exact sound.fresh.1 entry (mem_contexts.mpr (Or.inl cached))

/-- A check that moves on is decided, if at all, on a context that is not too old. -/
theorem sound_setPhase {state : State} (sound : Sound state) {index : Nat} {check : Check}
    (found : state.checks[index]? = some check) {phase : Phase}
    (hit : ∀ loaded, Check.hit { check with phase } = some loaded → loaded ∈ contexts state)
    (decided : ∀ loaded, phase = .decided loaded → loaded ∈ contexts state) :
    Sound (setPhase state index check phase) := by
  have checked := sound_checks sound
  apply sound_of_kept sound
  · intro loaded member
    apply sound.fresh.1
    rcases mem_contexts.mp member with first | second | pending | ⟨other, otherMember, otherHit⟩
    · exact mem_contexts.mpr (Or.inl first)
    · exact mem_contexts.mpr (Or.inr (Or.inl second))
    · exact mem_contexts.mpr (Or.inr (Or.inr (Or.inl pending)))
    · rcases List.mem_or_eq_of_mem_set otherMember with earlier | rfl
      · exact mem_contexts.mpr (Or.inr (Or.inr (Or.inr ⟨other, earlier, otherHit⟩)))
      · exact hit loaded otherHit
  · exact sound.fresh.2
  · rfl
  · exact Le.refl _
  · exact sound.stamps
  · intro other member
    rcases List.mem_or_eq_of_mem_set member with earlier | rfl
    · exact checked other earlier
    · have floor := sound.floors check (List.mem_of_getElem? found)
      refine ⟨floor, ?_⟩
      intro loaded isDecided
      exact floor.trans (sound.fresh.1 loaded (decided loaded isDecided))

theorem after_empty (floor : Versions) : Loader.After { groups := none, mappings := none } floor := by
  simp [Loader.After]

theorem sound_resumeCheck {state : State} (sound : Sound state) {index : Nat} {check : Check}
    {hit : Option Loaded} (found : state.checks[index]? = some check)
    (answered : check.phase = .answered hit) : Sound (resumeCheck state index check hit) := by
  cases hit with
  | some loaded =>
      have inHand : loaded ∈ contexts state := by
        apply mem_contexts.mpr
        exact Or.inr (Or.inr (Or.inr ⟨check, List.mem_of_getElem? found, by simp [Check.hit, answered]⟩))
      have moved : Sound (setPhase state index check (.decided loaded)) := by
        apply sound_setPhase sound found
        · simp [Check.hit]
        · intro other same
          rwa [← Phase.decided.inj same]
      have checked := sound_checks moved
      apply sound_of_kept moved
      · intro other member
        rcases mem_contexts.mp member with first | others
        · obtain rfl : loaded = other := Option.some.inj first
          exact sound.fresh.1 loaded inHand
        · exact moved.fresh.1 other (mem_contexts.mpr (Or.inr others))
      · exact moved.fresh.2
      · rfl
      · exact Le.refl _
      · exact moved.stamps
      · exact checked
  | none =>
      have moved : Sound (setPhase state index check .joined) := by
        apply sound_setPhase sound found
        · simp [Check.hit]
        · simp
      have checked := sound_checks moved
      apply sound_of_kept moved
      · exact moved.fresh.1
      · intro loader isLoader
        have present : state.loader.getD { groups := none, mappings := none } = loader :=
          Option.some.inj isLoader
        cases running : state.loader with
        | none =>
            rw [← present, running]
            exact after_empty _
        | some earlier =>
            rw [← present, running]
            exact sound.fresh.2 earlier running
      · rfl
      · exact Le.refl _
      · exact moved.stamps
      · exact checked

/-- The joined checks get the phase; every other check stays as it is. -/
theorem mem_settleJoined {checks : List Check} {phase : Phase} {check : Check}
    (member : check ∈ checks.map (settleJoined phase)) :
    check ∈ checks ∨ ∃ earlier ∈ checks, check = { earlier with phase } := by
  obtain ⟨earlier, earlierMember, rfl⟩ := List.mem_map.mp member
  unfold settleJoined
  split
  · exact Or.inr ⟨earlier, earlierMember, rfl⟩
  · exact Or.inl earlierMember

theorem sound_settle {state : State} (sound : Sound state) {phase : Phase}
    (noHit : ∀ check : Check, Check.hit { check with phase } = none)
    (decided : ∀ loaded, phase = .decided loaded → state.returned.Le loaded.read) :
    Sound (settle state phase) := by
  apply sound_of_kept sound
  · intro loaded member
    apply sound.fresh.1
    rcases mem_contexts.mp member with first | second | pending | ⟨check, checkMember, hit⟩
    · exact mem_contexts.mpr (Or.inl first)
    · exact mem_contexts.mpr (Or.inr (Or.inl second))
    · exact mem_contexts.mpr (Or.inr (Or.inr (Or.inl pending)))
    · rcases mem_settleJoined checkMember with earlier | ⟨earlier, _, rfl⟩
      · exact mem_contexts.mpr (Or.inr (Or.inr (Or.inr ⟨check, earlier, hit⟩)))
      · rw [noHit] at hit
        simp at hit
  · simp [settle]
  · rfl
  · exact Le.refl _
  · exact sound.stamps
  · intro check member
    rcases mem_settleJoined member with earlier | ⟨earlier, earlierMember, rfl⟩
    · exact ⟨sound.floors check earlier, sound.current check earlier⟩
    · have floor := sound.floors earlier earlierMember
      exact ⟨floor, fun loaded isDecided => floor.trans (decided loaded isDecided)⟩

theorem sound_finishLoad {state : State} (sound : Sound state) {groups : List ResolvedGroup × Nat}
    {mappings : Record (List JsString) × Nat}
    (running : state.loader = some { groups := some groups, mappings := some mappings }) :
    Sound (finishLoad state groups mappings) := by
  have after := sound.fresh.2 _ running
  have recent : state.returned.Le { grants := groups.2, mappings := mappings.2 } :=
    ⟨after.1 groups rfl, after.2 mappings rfl⟩
  have settled : Sound (settle state (.decided
      { snapshot := snapshotOf groups.1 mappings.1
        read := { grants := groups.2, mappings := mappings.2 } })) := by
    apply sound_settle sound
    · exact fun _ => rfl
    · intro loaded same
      rwa [← Phase.decided.inj same]
  have checked := sound_checks settled
  apply sound_of_kept settled
  · intro loaded member
    rcases mem_contexts.mp member with first | second | pending | held
    · rw [← Option.some.inj first]
      exact recent
    · exact settled.fresh.1 loaded (mem_contexts.mpr (Or.inr (Or.inl second)))
    · rcases List.mem_append.mp pending with earlier | newest
      · exact settled.fresh.1 loaded (mem_contexts.mpr (Or.inr (Or.inr (Or.inl earlier))))
      · rw [List.mem_singleton.mp newest]
        exact recent
    · exact settled.fresh.1 loaded (mem_contexts.mpr (Or.inr (Or.inr (Or.inr held))))
  · exact settled.fresh.2
  · rfl
  · exact Le.refl _
  · exact settled.stamps
  · exact checked

/-- A step that only drops contexts, or moves one from the writes to the second tier. -/
theorem sound_dropped {state : State} (sound : Sound state) (jobs deletes : Nat)
    {l1 l2 : Option Loaded} {writes : List Loaded}
    (first : ∀ loaded, l1 = some loaded → loaded ∈ contexts state)
    (second : ∀ loaded, l2 = some loaded → loaded ∈ contexts state)
    (pending : ∀ loaded ∈ writes, loaded ∈ contexts state) :
    Sound { state with jobs, deletes, l1, l2, writes } := by
  have checked := sound_checks sound
  apply sound_of_kept sound
  · intro loaded member
    apply sound.fresh.1
    rcases mem_contexts.mp member with isFirst | isSecond | isPending | held
    · exact first loaded isFirst
    · exact second loaded isSecond
    · exact pending loaded isPending
    · exact mem_contexts.mpr (Or.inr (Or.inr (Or.inr held)))
  · exact sound.fresh.2
  · rfl
  · exact Le.refl _
  · exact sound.stamps
  · exact checked

theorem mem_l1 {state : State} (loaded : Loaded) (cached : state.l1 = some loaded) :
    loaded ∈ contexts state := mem_contexts.mpr (Or.inl cached)

theorem mem_l2 {state : State} (loaded : Loaded) (cached : state.l2 = some loaded) :
    loaded ∈ contexts state := mem_contexts.mpr (Or.inr (Or.inl cached))

theorem mem_writes {state : State} (loaded : Loaded) (pending : loaded ∈ state.writes) :
    loaded ∈ contexts state := mem_contexts.mpr (Or.inr (Or.inr (Or.inl pending)))

theorem sound_landWrite {state : State} (sound : Sound state) {index : Nat} {loaded : Loaded}
    (found : state.writes[index]? = some loaded) (fails : Bool) :
    Sound { state with
      writes := state.writes.eraseIdx index
      l2 := if fails then state.l2 else some loaded } := by
  apply sound_dropped sound
  · exact mem_l1
  · intro other cached
    split at cached
    · exact mem_l2 other cached
    · rw [← Option.some.inj cached]
      exact mem_writes loaded (List.mem_of_getElem? found)
  · exact fun other member => mem_writes other (List.mem_of_mem_eraseIdx member)

theorem sound_read {state : State} (sound : Sound state) {loader : Loader}
    (recent : loader.After state.returned) : Sound { state with loader := some loader } := by
  have checked := sound_checks sound
  apply sound_of_kept sound
  · exact sound.fresh.1
  · intro other isLoader
    rw [← Option.some.inj isLoader]
    exact recent
  · rfl
  · exact Le.refl _
  · exact sound.stamps
  · exact checked

theorem sound_step {guildId : JsString} {state next : State} {action : Action} (sound : Sound state)
    (settled : ReturnsSettled state action) (taken : step guildId state action = some next) :
    Sound next := by
  cases action with
  | write mutation => exact sound_writeRows sound taken
  | publish index =>
      simp only [step] at taken
      split at taken
      · rename_i call found
        obtain ⟨_, isNext⟩ := Option.ite_none_right_eq_some.mp taken
        obtain rfl := Option.some.inj isNext
        exact sound_publish (sound_setCall sound found .published) call.mutation
      · simp at taken
  | returns index =>
      simp only [step] at taken
      split at taken
      · rename_i call found
        obtain ⟨_, isNext⟩ := Option.ite_none_right_eq_some.mp taken
        obtain rfl := Option.some.inj isNext
        exact sound_returns sound found (settled call found)
      · simp at taken
  | handle =>
      obtain ⟨_, isNext⟩ := Option.ite_none_left_eq_some.mp taken
      obtain rfl := Option.some.inj isNext
      exact sound_invalidate (sound_dropped sound _ _ mem_l1 mem_l2 mem_writes)
  | landDelete fails =>
      obtain ⟨_, isNext⟩ := Option.ite_none_left_eq_some.mp taken
      obtain rfl := Option.some.inj isNext
      apply sound_dropped sound _ _ mem_l1 _ mem_writes
      intro loaded cached
      split at cached
      · exact mem_l2 loaded cached
      · simp at cached
  | landWrite index fails =>
      simp only [step] at taken
      split at taken
      · rename_i loaded found
        obtain rfl := Option.some.inj taken
        exact sound_landWrite sound found fails
      · simp at taken
  | check actor claim =>
      obtain rfl := Option.some.inj taken
      exact sound_startCheck sound actor claim
  | fetch index fails =>
      simp only [step] at taken
      split at taken
      · rename_i check found
        split at taken
        · obtain rfl := Option.some.inj taken
          apply sound_setPhase sound found
          · intro loaded hit
            simp only [Check.hit] at hit
            split at hit
            · simp at hit
            · exact mem_l2 loaded hit
          · simp
        · simp at taken
      · simp at taken
  | resume index =>
      simp only [step] at taken
      split at taken
      · rename_i check found
        split at taken
        · rename_i hit answered
          obtain rfl := Option.some.inj taken
          exact sound_resumeCheck sound found answered
        · simp at taken
      · simp at taken
  | readGroups =>
      simp only [step] at taken
      split at taken
      · rename_i loader running
        obtain ⟨_, isNext⟩ := Option.ite_none_left_eq_some.mp taken
        obtain rfl := Option.some.inj isNext
        apply sound_read sound
        refine ⟨?_, (sound.fresh.2 loader running).2⟩
        intro groups isRead
        rw [← Option.some.inj isRead]
        exact sound.returned.1
      · simp at taken
  | readMappings =>
      simp only [step] at taken
      split at taken
      · rename_i loader running
        obtain ⟨_, isNext⟩ := Option.ite_none_left_eq_some.mp taken
        obtain rfl := Option.some.inj isNext
        apply sound_read sound
        refine ⟨(sound.fresh.2 loader running).1, ?_⟩
        intro mappings isRead
        rw [← Option.some.inj isRead]
        exact sound.returned.2
      · simp at taken
  | finishLoad =>
      simp only [step] at taken
      split at taken
      · rename_i groups mappings running
        obtain rfl := Option.some.inj taken
        exact sound_finishLoad sound running
      · simp at taken
  | failLoad =>
      obtain ⟨_, isNext⟩ := Option.ite_none_right_eq_some.mp taken
      obtain rfl := Option.some.inj isNext
      apply sound_settle sound
      · exact fun _ => rfl
      · simp
  | expireL1 =>
      obtain rfl := Option.some.inj taken
      exact sound_dropped sound _ _ (by simp) mem_l2 mem_writes
  | expireL2 =>
      obtain rfl := Option.some.inj taken
      exact sound_dropped sound _ _ mem_l1 (by simp) mem_writes

/-! From a mutation that returns unsettled, some run leads to a stale decision. -/

def GoesStale (guildId : JsString) (state : State) : Prop :=
  ∃ actions, ¬ Always (step guildId) DecideCurrently state actions

theorem goesStale_of_step {guildId : JsString} {state next : State} {action : Action}
    (taken : step guildId state action = some next) (later : GoesStale guildId next) :
    GoesStale guildId state := by
  obtain ⟨actions, stale⟩ := later
  refine ⟨action :: actions, ?_⟩
  intro always
  exact stale (always.2 next taken)

def anyone : PermissionActor :=
  { userId := [], guildId := [], discordRoleIds := [], isGuildOwner := false }

theorem goesStale_l1 {guildId : JsString} {state : State} {loaded : Loaded}
    (cached : state.l1 = some loaded) (old : ¬ state.returned.Le loaded.read) :
    GoesStale guildId state := by
  have taken : step guildId state (.check anyone []) = some (startCheck state anyone []) := rfl
  apply goesStale_of_step taken
  refine ⟨[], ?_⟩
  intro current
  apply old
  apply current { actor := anyone, claim := [], floor := state.returned, phase := .decided loaded }
  · simp [startCheck, cached]
  · rfl

theorem goesStale_hit {guildId : JsString} {state : State} {index : Nat} {check : Check}
    {loaded : Loaded} (found : state.checks[index]? = some check)
    (answered : check.phase = .answered (some loaded)) (old : ¬ state.returned.Le loaded.read) :
    GoesStale guildId state := by
  have taken : step guildId state (.resume index) =
      some (resumeCheck state index check (some loaded)) := by
    simp only [step, found, answered]
  apply goesStale_of_step taken
  exact goesStale_l1 rfl old

theorem goesStale_asked {guildId : JsString} {state : State} {index : Nat} {check : Check}
    {loaded : Loaded} (found : state.checks[index]? = some check) (asked : check.phase = .asked)
    (cached : state.l2 = some loaded) (old : ¬ state.returned.Le loaded.read) :
    GoesStale guildId state := by
  have taken : step guildId state (.fetch index false) =
      some (setPhase state index check (.answered (some loaded))) := by
    simp [step, found, asked, cached]
  apply goesStale_of_step taken
  have bound : index < state.checks.length := (List.getElem?_eq_some_iff.mp found).1
  have answered : (state.checks.set index { check with phase := .answered (some loaded) })[index]? =
      some { check with phase := .answered (some loaded) } := by
    simp [bound]
  exact goesStale_hit answered rfl old

theorem goesStale_l2 {guildId : JsString} {state : State} {loaded : Loaded}
    (cached : state.l2 = some loaded) (old : ¬ state.returned.Le loaded.read) :
    GoesStale guildId state := by
  have expired : step guildId state .expireL1 = some { state with l1 := none } := rfl
  apply goesStale_of_step expired
  have started : step guildId { state with l1 := none } (.check anyone []) =
      some (startCheck { state with l1 := none } anyone []) := rfl
  apply goesStale_of_step started
  have found : (startCheck { state with l1 := none } anyone []).checks[state.checks.length]? =
      some { actor := anyone, claim := [], floor := state.returned, phase := .asked } := by
    simp [startCheck]
  exact goesStale_asked found rfl cached old

theorem goesStale_contexts {guildId : JsString} {state : State} {loaded : Loaded}
    (member : loaded ∈ contexts state) (old : ¬ state.returned.Le loaded.read) :
    GoesStale guildId state := by
  rcases mem_contexts.mp member with first | second | pending | ⟨check, checkMember, hit⟩
  · exact goesStale_l1 first old
  · exact goesStale_l2 second old
  · obtain ⟨index, found⟩ := List.getElem?_of_mem pending
    have taken : step guildId state (.landWrite index false) = some
        { state with writes := state.writes.eraseIdx index, l2 := some loaded } := by
      simp [step, found]
    apply goesStale_of_step taken
    exact goesStale_l2 rfl old
  · obtain ⟨index, found⟩ := List.getElem?_of_mem checkMember
    have answered : check.phase = .answered (some loaded) := by
      unfold Check.hit at hit
      split at hit
      · rename_i asked same
        rw [same, hit]
      · simp at hit
    exact goesStale_hit found answered old

theorem goesStale_loaded {guildId : JsString} {state : State} {groups : List ResolvedGroup × Nat}
    {mappings : Record (List JsString) × Nat}
    (running : state.loader = some { groups := some groups, mappings := some mappings })
    (old : ¬ state.returned.Le { grants := groups.2, mappings := mappings.2 }) :
    GoesStale guildId state := by
  have taken : step guildId state .finishLoad = some (finishLoad state groups mappings) := by
    simp only [step, running]
  apply goesStale_of_step taken
  exact goesStale_l1 rfl old

theorem goesStale_loader {guildId : JsString} {state : State} {loader : Loader}
    (running : state.loader = some loader) (old : ¬ loader.After state.returned) :
    GoesStale guildId state := by
  obtain ⟨groups, mappings⟩ := loader
  cases groups with
  | none =>
      cases mappings with
      | none => exact absurd (after_empty _) old
      | some mappings =>
          let read : Loader :=
            { groups := some (loadResolvedGroups state.database guildId, state.written.grants)
              mappings := some mappings }
          have taken : step guildId state .readGroups = some { state with loader := some read } := by
            simp [step, running, read]
          apply goesStale_of_step taken
          apply goesStale_loaded rfl
          intro current
          apply old
          exact ⟨by simp, fun read isRead => Option.some.inj isRead ▸ current.2⟩
  | some groups =>
      cases mappings with
      | none =>
          let rows := buildRoleToGroupsMap state.database guildId
          let read : Loader :=
            { groups := some groups, mappings := some (rows, state.written.mappings) }
          have taken : step guildId state .readMappings =
              some { state with loader := some read } := by
            simp [step, running, read, rows]
          apply goesStale_of_step taken
          apply goesStale_loaded rfl
          intro current
          apply old
          exact ⟨fun read isRead => Option.some.inj isRead ▸ current.1, by simp⟩
      | some mappings =>
          apply goesStale_loaded running
          intro current
          apply old
          exact ⟨fun read isRead => Option.some.inj isRead ▸ current.1,
            fun read isRead => Option.some.inj isRead ▸ current.2⟩

theorem goesStale_returns {guildId : JsString} {state next : State} {index : Nat}
    (taken : step guildId state (.returns index) = some next)
    (unsettled : ¬ ReturnsSettled state (.returns index)) : GoesStale guildId next := by
  simp only [step] at taken
  split at taken
  · rename_i call found
    obtain ⟨_, isNext⟩ := Option.ite_none_right_eq_some.mp taken
    obtain rfl := Option.some.inj isNext
    have notFresh : ¬ Fresh (state.returned.join call.stamp) state := by
      intro fresh
      apply unsettled
      intro other same
      rw [found] at same
      obtain rfl := Option.some.inj same
      exact (fresh_join.mp fresh).2
    by_cases cached : ∀ loaded ∈ contexts state, (state.returned.join call.stamp).Le loaded.read
    · have loaders : ¬ ∀ loader ∈ state.loader, loader.After (state.returned.join call.stamp) :=
        fun loaders => notFresh ⟨cached, loaders⟩
      push Not at loaders
      obtain ⟨loader, running, old⟩ := loaders
      exact goesStale_loader running old
    · push Not at cached
      obtain ⟨loaded, member, old⟩ := cached
      exact goesStale_contexts member old
  · simp at taken

/-- If mutations return only when no older context is cached or in flight, then every check after
a mutation includes it; and after one that returns otherwise some check can miss it. -/
theorem decideCurrently_always (guildId : JsString) (database : Database) :
    (∀ actions, Guarded (step guildId) ReturnsSettled (State.start database) actions →
      Always (step guildId) DecideCurrently (State.start database) actions) ∧
    ∀ state index next, step guildId state (.returns index) = some next →
      ¬ ReturnsSettled state (.returns index) →
      ∃ actions, ¬ Always (step guildId) DecideCurrently next actions := by
  refine ⟨?_, ?_⟩
  · intro actions guarded
    have always := always_of_guarded (step guildId)
      (fun state action next sound settled taken => sound_step sound settled taken)
      (sound_start database) guarded
    exact always.mono _ fun state sound => sound.current
  · intro state index next taken unsettled
    exact goesStale_returns taken unsettled

instance (loader : Loader) (floor : Versions) : Decidable (loader.After floor) :=
  inferInstanceAs (Decidable (_ ∧ _))

instance (floor : Versions) (state : State) : Decidable (Fresh floor state) :=
  inferInstanceAs (Decidable (_ ∧ _))

instance (state : State) (action : Action) : Decidable (ReturnsSettled state action) := by
  cases action <;> unfold ReturnsSettled <;> infer_instance

/-! The claim of the default group is loaded, revoked and checked again. -/

def revoke : Mutation := .removeClaimGrant memberKey (js "tickets.create")

def loadContext : List Action :=
  [.check administrator (js "tickets.create"), .fetch 0 false, .resume 0, .readGroups,
    .readMappings, .finishLoad]

theorem decideCurrently_invalidated :
    Always (step (js "g")) DecideCurrently (State.start mappedGuild)
      [.write revoke, .publish 0, .handle, .landDelete false, .returns 0,
        .check administrator (js "tickets.create"), .fetch 0 false] :=
  (decideCurrently_always (js "g") mappedGuild).1 _ (by decide +kernel)

def isCurrent (check : Check) : Bool :=
  match check.phase with
  | .decided loaded => decide (check.floor.Le loaded.read)
  | _ => true

theorem isCurrent_of_decideCurrently (state : State) (current : DecideCurrently state) :
    state.checks.all isCurrent = true := by
  apply List.all_eq_true.mpr
  intro check member
  unfold isCurrent
  split
  · rename_i loaded isDecided
    exact decide_eq_true (current check member loaded isDecided)
  · rfl

/-- The revocation has returned, and the next check decides on the context from before it. -/
theorem revoked_still_granted :
    ¬ ∀ (guildId : JsString) (database : Database) (actions : List Action),
      Always (step guildId) DecideCurrently (State.start database) actions := by
  intro all
  refine not_always (step (js "g")) (fun state => state.checks.all isCurrent)
    isCurrent_of_decideCurrently ?_ (all (js "g") mappedGuild (loadContext ++
      [.write revoke, .publish 0, .returns 0, .check administrator (js "tickets.create")]))
  decide +kernel

end Permissions
