import ArmstrongBot.Cache.Service
import Mathlib.Logic.Basic

/-! Which values the calls that start after a delete may still be given. -/

namespace Cache

open StepMachine

variable {V : Type}

theorem mem_entries {state : State V} {entry : CacheEntry V} :
    entry ∈ entries state ↔ state.l1 = some entry ∨ state.l2 = some entry ∨
      entry ∈ state.writes ∨ ∃ call ∈ state.calls, call.hit = some entry := by
  simp [entries]

theorem fresh_max {first second : Nat} {state : State V} :
    Fresh (max first second) state ↔ Fresh first state ∧ Fresh second state := by
  constructor
  · intro fresh
    constructor <;> constructor
    · exact fun entry member some => (Nat.max_le.mp (fresh.cached entry member some)).1
    · exact fun loader running entry read =>
        (Nat.max_le.mp (fresh.loaded loader running entry read)).1
    · exact fun entry member some => (Nat.max_le.mp (fresh.cached entry member some)).2
    · exact fun loader running entry read =>
        (Nat.max_le.mp (fresh.loaded loader running entry read)).2
  · rintro ⟨left, right⟩
    constructor
    · exact fun entry member some =>
        Nat.max_le.mpr ⟨left.cached entry member some, right.cached entry member some⟩
    · exact fun loader running entry read =>
        Nat.max_le.mpr ⟨left.loaded loader running entry read, right.loaded loader running entry read⟩

/-! What an answer leads to. -/

theorem answer_yielded {call : Call V} {hit : Option (CacheEntry V)} {entry : CacheEntry V}
    (yields : (call.answer hit).phase = .yielded entry) :
    hit = some entry ∧ entry.value.isSome = true := by
  cases hit with
  | none => cases fills : call.fills <;> simp [Call.answer, answerPhase, fills] at yields
  | some found =>
      cases isValue : found.value.isSome with
      | true =>
          obtain rfl : found = entry := by simpa [Call.answer, answerPhase, isValue] using yields
          exact ⟨rfl, isValue⟩
      | false =>
          cases fills : call.fills <;> simp [Call.answer, answerPhase, isValue, fills] at yields

theorem hit_answer (call : Call V) (hit : Option (CacheEntry V)) : (call.answer hit).hit = none := by
  cases hit with
  | none => cases fills : call.fills <;> simp [Call.answer, answerPhase, Call.hit, fills]
  | some found =>
      cases isValue : found.value.isSome <;> cases fills : call.fills <;>
        simp [Call.answer, answerPhase, Call.hit, isValue, fills]

theorem mem_set_call {calls : List (Call V)} {index : Nat} {call other : Call V}
    (member : other ∈ calls.set index call) : other ∈ calls ∨ other = call :=
  List.mem_or_eq_of_mem_set member

theorem mem_settleJoined {phase : Phase V} {call : Call V} {calls : List (Call V)}
    (member : call ∈ calls.map (settleJoined phase)) :
    call ∈ calls ∨ ∃ joined ∈ calls, call = { joined with phase } := by
  obtain ⟨before, beforeMember, rfl⟩ := List.mem_map.mp member
  unfold settleJoined
  split
  · exact .inr ⟨before, beforeMember, rfl⟩
  · exact .inl beforeMember

/-! The entries after a step come from before it, or from the loader that is done. -/

section Entries

variable {state : State V}

theorem startCall_hit {fills l2Only : Bool} {entry : CacheEntry V} (hit : state.l1 = some entry) :
    startCall state fills l2Only =
      { state with
        calls := state.calls ++
          [Call.answer { fills, l2Only, floor := state.returned, phase := .asked } (some entry)]
        loader := startsLoader state { fills, l2Only, floor := state.returned, phase := .asked }
          (some entry) } := by
  rw [startCall, hit]

theorem startCall_miss {fills l2Only : Bool} (miss : state.l1 = none) :
    startCall state fills l2Only =
      { state with
        calls := state.calls ++
          [{ fills, l2Only, floor := state.returned, phase := .asked }] } := by
  rw [startCall, miss]

theorem entries_startCall {fills l2Only : Bool} :
    ∀ entry ∈ entries (startCall state fills l2Only), entry ∈ entries state := by
  intro other member
  unfold startCall at member
  dsimp only at member
  split at member
  · rcases mem_entries.mp member with first | second | pending | ⟨call, callMember, hit⟩
    · exact mem_entries.mpr (.inl first)
    · exact mem_entries.mpr (.inr (.inl second))
    · exact mem_entries.mpr (.inr (.inr (.inl pending)))
    · rcases List.mem_append.mp callMember with earlier | newest
      · exact mem_entries.mpr (.inr (.inr (.inr ⟨call, earlier, hit⟩)))
      · rw [List.mem_singleton.mp newest, hit_answer] at hit
        cases hit
  · rcases mem_entries.mp member with first | second | pending | ⟨call, callMember, hit⟩
    · exact mem_entries.mpr (.inl first)
    · exact mem_entries.mpr (.inr (.inl second))
    · exact mem_entries.mpr (.inr (.inr (.inl pending)))
    · rcases List.mem_append.mp callMember with earlier | newest
      · exact mem_entries.mpr (.inr (.inr (.inr ⟨call, earlier, hit⟩)))
      · rw [List.mem_singleton.mp newest] at hit
        cases hit

theorem entries_answer {index : Nat} {call : Call V} {fails : Bool} :
    ∀ entry ∈ entries { state with
      calls := state.calls.set index
        { call with phase := .answered (if fails then none else state.l2) } },
      entry ∈ entries state := by
  intro other member
  rcases mem_entries.mp member with first | second | pending | ⟨asked, askedMember, hit⟩
  · exact mem_entries.mpr (.inl first)
  · exact mem_entries.mpr (.inr (.inl second))
  · exact mem_entries.mpr (.inr (.inr (.inl pending)))
  · rcases mem_set_call askedMember with earlier | rfl
    · exact mem_entries.mpr (.inr (.inr (.inr ⟨asked, earlier, hit⟩)))
    · cases fails with
      | true => cases hit
      | false => exact mem_entries.mpr (.inr (.inl hit))

theorem mem_entries_answered {index : Nat} {call : Call V} {entry : CacheEntry V}
    (found : state.calls[index]? = some call) (answered : call.phase = .answered (some entry)) :
    entry ∈ entries state :=
  mem_entries.mpr (.inr (.inr (.inr ⟨call, List.mem_of_getElem? found, by
    simp [Call.hit, answered]⟩)))

theorem entries_resumeCall {index : Nat} {call : Call V} {hit : Option (CacheEntry V)}
    (found : state.calls[index]? = some call) (answered : call.phase = .answered hit) :
    ∀ entry ∈ entries (resumeCall state index call hit), entry ∈ entries state := by
  intro other member
  rcases mem_entries.mp member with first | second | pending | ⟨asked, askedMember, otherHit⟩
  · rcases Option.or_eq_some_iff.mp first with promoted | ⟨_, kept⟩
    · exact mem_entries_answered found (promoted ▸ answered)
    · exact mem_entries.mpr (.inl kept)
  · exact mem_entries.mpr (.inr (.inl second))
  · exact mem_entries.mpr (.inr (.inr (.inl pending)))
  · rcases mem_set_call askedMember with earlier | rfl
    · exact mem_entries.mpr (.inr (.inr (.inr ⟨asked, earlier, otherHit⟩)))
    · rw [hit_answer] at otherHit
      cases otherHit

theorem entries_settle {phase : Phase V}
    (noHit : ∀ call : Call V, Call.hit { call with phase } = none) :
    ∀ entry ∈ entries (settle state phase), entry ∈ entries state := by
  intro other member
  rcases mem_entries.mp member with first | second | pending | ⟨call, callMember, hit⟩
  · exact mem_entries.mpr (.inl first)
  · exact mem_entries.mpr (.inr (.inl second))
  · exact mem_entries.mpr (.inr (.inr (.inl pending)))
  · rcases mem_settleJoined callMember with earlier | ⟨joined, _, rfl⟩
    · exact mem_entries.mpr (.inr (.inr (.inr ⟨call, earlier, hit⟩)))
    · rw [noHit] at hit
      cases hit

theorem entries_finishLoad {l2Only : Bool} {entry : CacheEntry V} :
    ∀ other ∈ entries (finishLoad state l2Only entry), other ∈ entries state ∨ other = entry := by
  intro other member
  have settled := @entries_settle _ state (.yielded entry) (fun _ => rfl) other
  rcases mem_entries.mp member with first | second | pending | hit
  · cases l2Only with
    | true => exact .inl (settled (mem_entries.mpr (.inl first)))
    | false => exact .inr (Option.some.inj first).symm
  · exact .inl (settled (mem_entries.mpr (.inr (.inl second))))
  · rcases List.mem_append.mp pending with earlier | newest
    · exact .inl (settled (mem_entries.mpr (.inr (.inr (.inl earlier)))))
    · exact .inr (List.mem_singleton.mp newest)
  · exact .inl (settled (mem_entries.mpr (.inr (.inr (.inr hit)))))

theorem entries_landWrite {index : Nat} {entry : CacheEntry V}
    (pending : state.writes[index]? = some entry) {fails : Bool} :
    ∀ other ∈ entries { state with
      writes := state.writes.eraseIdx index
      l2 := if fails then state.l2 else some entry }, other ∈ entries state := by
  intro other member
  rcases mem_entries.mp member with first | second | later | hit
  · exact mem_entries.mpr (.inl first)
  · cases fails with
    | true => exact mem_entries.mpr (.inr (.inl second))
    | false =>
        obtain rfl := Option.some.inj second
        exact mem_entries.mpr (.inr (.inr (.inl (List.mem_of_getElem? pending))))
  · exact mem_entries.mpr (.inr (.inr (.inl (List.mem_of_mem_eraseIdx later))))
  · exact mem_entries.mpr (.inr (.inr (.inr hit)))

end Entries

/-! What the steps of a call and of the loader do. -/

section Inversions

variable {state next : State V}

theorem step_answer {index : Nat} {fails : Bool}
    (taken : step state (.answer index fails) = some next) :
    ∃ call, state.calls[index]? = some call ∧ call.phase = .asked ∧
      next = { state with
        calls := state.calls.set index
          { call with phase := .answered (if fails then none else state.l2) } } := by
  simp only [step] at taken
  split at taken
  · rename_i call found
    split at taken
    · rename_i asked
      exact ⟨call, found, asked, (Option.some.inj taken).symm⟩
    · cases taken
  · cases taken

theorem step_resume {index : Nat} (taken : step state (.resume index) = some next) :
    ∃ call hit, state.calls[index]? = some call ∧ call.phase = .answered hit ∧
      next = resumeCall state index call hit := by
  simp only [step] at taken
  split at taken
  · rename_i call found
    split at taken
    · rename_i hit answered
      exact ⟨call, hit, found, answered, (Option.some.inj taken).symm⟩
    · cases taken
  · cases taken

theorem step_read {value : Option V} (taken : step state (.read value) = some next) :
    ∃ loader, state.loader = some loader ∧ loader.read = none ∧
      next = { state with
        loader := some { loader with read := some { value, read := state.called } } } := by
  simp only [step] at taken
  split at taken
  · rename_i loader running
    obtain ⟨unread, isNext⟩ := Option.ite_none_left_eq_some.mp taken
    exact ⟨loader, running, by simpa using unread, (Option.some.inj isNext).symm⟩
  · cases taken

theorem step_load (taken : step state .load = some next) :
    ∃ loader entry, state.loader = some loader ∧ loader.read = some entry ∧
      next = finishLoad state loader.l2Only entry := by
  simp only [step] at taken
  split at taken
  · rename_i loader running
    obtain ⟨entry, read, isNext⟩ := Option.map_eq_some_iff.mp taken
    exact ⟨loader, entry, running, read, isNext.symm⟩
  · cases taken

end Inversions

/-- A loader that is started has read nothing yet. -/
theorem startsLoader_read {state : State V} {call : Call V} {hit : Option (CacheEntry V)}
    {loader : Loader V} {entry : CacheEntry V} (running : startsLoader state call hit = some loader)
    (read : loader.read = some entry) : state.loader = some loader := by
  unfold startsLoader at running
  split at running
  · cases found : state.loader with
    | none =>
        rw [found] at running
        obtain rfl := Option.some.inj running
        cases read
    | some before =>
        rw [found] at running
        exact running
  · exact running

/-- The invariant of the runs in which every delete returns clean. -/
structure Sound (state : State V) : Prop where
  fresh : Fresh state.returned state
  returned : state.returned ≤ state.called
  deletes : ∀ delete ∈ state.deletes, delete.number ≤ state.called
  floors : ∀ call ∈ state.calls, call.floor ≤ state.returned
  yields : YieldsFresh state

theorem sound_start : Sound (State.start (V := V)) where
  fresh := ⟨by simp [entries, State.start], by simp [State.start]⟩
  returned := Nat.le_refl _
  deletes := by simp [State.start]
  floors := by simp [State.start]
  yields := by simp [YieldsFresh, State.start]

/-- What is asked of a call: its floor, and the value that it gave. -/
def Served (returned : Nat) (call : Call V) : Prop :=
  call.floor ≤ returned ∧ ∀ entry, call.phase = .yielded entry → call.floor ≤ entry.read

section Steps

variable {state next : State V}

theorem Sound.served (sound : Sound state) : ∀ call ∈ state.calls, Served state.returned call :=
  fun call member => ⟨sound.floors call member, sound.yields call member⟩

/-- What a step has to keep, as long as no delete returns in it. -/
theorem sound_of_kept (sound : Sound state) (sameReturned : next.returned = state.returned)
    (called : state.called ≤ next.called)
    (deletes : ∀ delete ∈ next.deletes, delete.number ≤ next.called)
    (cached : ∀ entry ∈ entries next, entry.value.isSome = true → state.returned ≤ entry.read)
    (loaded : ∀ loader ∈ next.loader, ∀ entry ∈ loader.read, state.returned ≤ entry.read)
    (served : ∀ call ∈ next.calls, Served state.returned call) : Sound next where
  fresh := ⟨by rwa [sameReturned], by rwa [sameReturned]⟩
  returned := by
    rw [sameReturned]
    exact Nat.le_trans sound.returned called
  deletes := deletes
  floors := by
    rw [sameReturned]
    exact fun call member => (served call member).1
  yields := fun call member => (served call member).2

/-- A step that changes no delete and adds nothing to what is cached. -/
theorem sound_of_less (sound : Sound state) (sameReturned : next.returned = state.returned)
    (sameCalled : next.called = state.called) (sameDeletes : next.deletes = state.deletes)
    (cached : ∀ entry ∈ entries next, entry ∈ entries state)
    (loaded : ∀ loader ∈ next.loader, ∀ entry ∈ loader.read, state.returned ≤ entry.read)
    (served : ∀ call ∈ next.calls, Served state.returned call) : Sound next := by
  refine sound_of_kept sound sameReturned (Nat.le_of_eq sameCalled.symm) ?_ ?_ loaded served
  · rw [sameDeletes, sameCalled]
    exact sound.deletes
  · exact fun entry member => sound.fresh.cached entry (cached entry member)

theorem sound_startCall (sound : Sound state) (fills l2Only : Bool) :
    Sound (startCall state fills l2Only) := by
  have cached := @entries_startCall _ state fills l2Only
  cases hit : state.l1 with
  | some entry =>
      rw [startCall_hit hit] at cached ⊢
      refine sound_of_less sound rfl rfl rfl cached ?_ ?_
      · intro loader running other read
        exact sound.fresh.loaded loader (startsLoader_read running read) other read
      · intro call member
        rcases List.mem_append.mp member with earlier | newest
        · exact sound.served call earlier
        · obtain rfl := List.mem_singleton.mp newest
          refine ⟨Nat.le_refl _, ?_⟩
          intro other yields
          obtain ⟨same, isValue⟩ := answer_yielded yields
          obtain rfl := Option.some.inj same
          exact sound.fresh.cached entry (mem_entries.mpr (.inl hit)) isValue
  | none =>
      rw [startCall_miss hit] at cached ⊢
      refine sound_of_less sound rfl rfl rfl cached sound.fresh.loaded ?_
      intro call member
      rcases List.mem_append.mp member with earlier | newest
      · exact sound.served call earlier
      · obtain rfl := List.mem_singleton.mp newest
        exact ⟨Nat.le_refl _, nofun⟩

theorem sound_answer (sound : Sound state) {index : Nat} {call : Call V}
    (found : state.calls[index]? = some call) (fails : Bool) :
    Sound { state with
      calls := state.calls.set index
        { call with phase := .answered (if fails then none else state.l2) } } := by
  refine sound_of_less sound rfl rfl rfl entries_answer sound.fresh.loaded ?_
  intro other member
  rcases mem_set_call member with earlier | rfl
  · exact sound.served other earlier
  · exact ⟨sound.floors call (List.mem_of_getElem? found), nofun⟩

theorem sound_resumeCall (sound : Sound state) {index : Nat} {call : Call V}
    (found : state.calls[index]? = some call) {hit : Option (CacheEntry V)}
    (answered : call.phase = .answered hit) : Sound (resumeCall state index call hit) := by
  refine sound_of_less sound rfl rfl rfl (entries_resumeCall found answered) ?_ ?_
  · intro loader running other read
    exact sound.fresh.loaded loader (startsLoader_read running read) other read
  · intro other member
    rcases mem_set_call member with earlier | rfl
    · exact sound.served other earlier
    · have floor := sound.floors call (List.mem_of_getElem? found)
      refine ⟨floor, ?_⟩
      intro entry yields
      obtain ⟨rfl, isValue⟩ := answer_yielded yields
      exact Nat.le_trans floor
        (sound.fresh.cached entry (mem_entries_answered found answered) isValue)

theorem sound_settle (sound : Sound state) {phase : Phase V}
    (noHit : ∀ call : Call V, Call.hit { call with phase } = none)
    (yields : ∀ entry, phase = .yielded entry → state.returned ≤ entry.read) :
    Sound (settle state phase) := by
  refine sound_of_less sound rfl rfl rfl (entries_settle noHit) nofun ?_
  intro call member
  rcases mem_settleJoined member with earlier | ⟨joined, joinedMember, rfl⟩
  · exact sound.served call earlier
  · have floor := sound.floors joined joinedMember
    exact ⟨floor, fun entry isPhase => Nat.le_trans floor (yields entry isPhase)⟩

theorem sound_finishLoad (sound : Sound state) {loader : Loader V} {entry : CacheEntry V}
    (running : state.loader = some loader) (read : loader.read = some entry) (l2Only : Bool) :
    Sound (finishLoad state l2Only entry) := by
  have fresh := sound.fresh.loaded loader running entry read
  have settled : Sound (settle state (.yielded entry)) := by
    refine sound_settle sound (fun _ => rfl) ?_
    intro other same
    cases same
    exact fresh
  refine sound_of_kept settled rfl (Nat.le_refl _) settled.deletes ?_ nofun settled.served
  intro other member isValue
  rcases entries_finishLoad other member with before | rfl
  · exact sound.fresh.cached other before isValue
  · exact fresh

theorem entries_dropped (l1 l2 : Option (CacheEntry V))
    (first : ∀ entry, l1 = some entry → state.l1 = some entry)
    (second : ∀ entry, l2 = some entry → entry ∈ entries state) :
    ∀ entry ∈ entries { state with l1, l2 }, entry ∈ entries state := by
  intro entry member
  rcases mem_entries.mp member with isFirst | isSecond | pending | hit
  · exact mem_entries.mpr (.inl (first entry isFirst))
  · exact second entry isSecond
  · exact mem_entries.mpr (.inr (.inr (.inl pending)))
  · exact mem_entries.mpr (.inr (.inr (.inr hit)))

theorem sound_landWrite (sound : Sound state) {index : Nat} {entry : CacheEntry V}
    (pending : state.writes[index]? = some entry) (fails : Bool) :
    Sound { state with
      writes := state.writes.eraseIdx index
      l2 := if fails then state.l2 else some entry } :=
  sound_of_less sound rfl rfl rfl (entries_landWrite pending) sound.fresh.loaded sound.served

theorem sound_delete (sound : Sound state) :
    Sound { state with
      called := state.called + 1
      deletes := state.deletes ++ [{ number := state.called + 1, landed := false }]
      l1 := none } := by
  refine sound_of_kept sound rfl (Nat.le_succ _) ?_ ?_ sound.fresh.loaded sound.served
  · intro delete member
    rcases List.mem_append.mp member with earlier | newest
    · exact Nat.le_succ_of_le (sound.deletes delete earlier)
    · exact Nat.le_of_eq (congrArg Delete.number (List.mem_singleton.mp newest))
  · intro entry member
    refine sound.fresh.cached entry ?_
    exact entries_dropped none state.l2 nofun
      (fun _ second => mem_entries.mpr (.inr (.inl second))) entry member

theorem sound_landDelete (sound : Sound state) {index : Nat} {delete : Delete}
    (found : state.deletes[index]? = some delete) (fails : Bool) :
    Sound { state with
      deletes := state.deletes.set index { delete with landed := true }
      l2 := if fails then state.l2 else none } := by
  refine sound_of_kept sound rfl (Nat.le_refl _) ?_ ?_ sound.fresh.loaded sound.served
  · intro other member
    rcases List.mem_or_eq_of_mem_set member with earlier | rfl
    · exact sound.deletes other earlier
    · exact sound.deletes delete (List.mem_of_getElem? found)
  · intro entry member
    refine sound.fresh.cached entry
      (entries_dropped state.l1 _ (fun _ first => first) ?_ entry member)
    intro other second
    cases fails with
    | true => exact mem_entries.mpr (.inr (.inl second))
    | false => cases second

theorem sound_returns (sound : Sound state) {index : Nat} {delete : Delete}
    (found : state.deletes[index]? = some delete) (clean : Fresh delete.number state) :
    Sound { state with
      deletes := state.deletes.eraseIdx index
      returned := max state.returned delete.number } := by
  have member := List.mem_of_getElem? found
  have fresh := fresh_max.mpr ⟨sound.fresh, clean⟩
  exact {
    fresh := ⟨fresh.cached, fresh.loaded⟩
    returned := Nat.max_le.mpr ⟨sound.returned, sound.deletes delete member⟩
    deletes := fun other later => sound.deletes other (List.mem_of_mem_eraseIdx later)
    floors := fun call callMember =>
      Nat.le_trans (sound.floors call callMember) (Nat.le_max_left ..)
    yields := sound.yields }

theorem sound_step {action : Action V} (sound : Sound state) (clean : ReturnsClean state action)
    (taken : step state action = some next) : Sound next := by
  cases action with
  | call fills l2Only =>
      obtain rfl := Option.some.inj taken
      exact sound_startCall sound fills l2Only
  | answer index fails =>
      obtain ⟨call, found, -, rfl⟩ := step_answer taken
      exact sound_answer sound found fails
  | resume index =>
      obtain ⟨call, hit, found, answered, rfl⟩ := step_resume taken
      exact sound_resumeCall sound found answered
  | read value =>
      obtain ⟨loader, running, -, rfl⟩ := step_read taken
      refine sound_of_less sound rfl rfl rfl (fun _ member => member) ?_ sound.served
      rintro other isLoader entry isRead
      obtain rfl := Option.some.inj isLoader
      obtain rfl := Option.some.inj isRead
      exact sound.returned
  | load =>
      obtain ⟨loader, entry, running, read, rfl⟩ := step_load taken
      exact sound_finishLoad sound running read loader.l2Only
  | failLoad =>
      obtain ⟨_, isNext⟩ := Option.ite_none_right_eq_some.mp taken
      obtain rfl := Option.some.inj isNext
      exact sound_settle sound (fun _ => rfl) nofun
  | landWrite index fails =>
      obtain ⟨entry, pending, rfl⟩ := Option.map_eq_some_iff.mp taken
      exact sound_landWrite sound pending fails
  | delete =>
      obtain rfl := Option.some.inj taken
      exact sound_delete sound
  | landDelete index fails =>
      simp only [step] at taken
      split at taken
      · rename_i delete found
        obtain ⟨_, isNext⟩ := Option.ite_none_left_eq_some.mp taken
        obtain rfl := Option.some.inj isNext
        exact sound_landDelete sound found fails
      · cases taken
  | returns index =>
      simp only [step] at taken
      split at taken
      · rename_i delete found
        obtain ⟨_, isNext⟩ := Option.ite_none_right_eq_some.mp taken
        obtain rfl := Option.some.inj isNext
        exact sound_returns sound found (clean delete found)
      · cases taken
  | dropL1 =>
      obtain rfl := Option.some.inj taken
      refine sound_of_less sound rfl rfl rfl ?_ sound.fresh.loaded sound.served
      exact entries_dropped none state.l2 nofun fun _ second => mem_entries.mpr (.inr (.inl second))
  | expireL2 =>
      obtain rfl := Option.some.inj taken
      refine sound_of_less sound rfl rfl rfl ?_ sound.fresh.loaded sound.served
      exact entries_dropped state.l1 none (fun _ first => first) nofun

end Steps

/-! Every older entry that is left can reach a later call. -/

def GoesStale (state : State V) : Prop := ∃ actions, ¬ Always step YieldsFresh state actions

section Stale

variable {state next : State V} {entry : CacheEntry V}

theorem goesStale_of_step {action : Action V} (taken : step state action = some next)
    (later : GoesStale next) : GoesStale state := by
  obtain ⟨actions, stale⟩ := later
  refine ⟨action :: actions, ?_⟩
  intro always
  exact stale (always.2 next taken)

theorem goesStale_l1 (cached : state.l1 = some entry) (isValue : entry.value.isSome = true)
    (old : ¬ state.returned ≤ entry.read) : GoesStale state := by
  have taken : step state (.call false false) = some (startCall state false false) := rfl
  refine goesStale_of_step taken ⟨[], ?_⟩
  intro fresh
  apply old
  refine fresh { fills := false, l2Only := false, floor := state.returned, phase := .yielded entry }
    ?_ entry rfl
  simp [startCall, cached, Call.answer, answerPhase, isValue]

theorem goesStale_hit {index : Nat} {call : Call V} (found : state.calls[index]? = some call)
    (answered : call.phase = .answered (some entry)) (isValue : entry.value.isSome = true)
    (old : ¬ state.returned ≤ entry.read) : GoesStale state := by
  have taken : step state (.resume index) = some (resumeCall state index call (some entry)) := by
    simp only [step, found, answered]
  exact goesStale_of_step taken (goesStale_l1 rfl isValue old)

theorem goesStale_asked {index : Nat} {call : Call V} (found : state.calls[index]? = some call)
    (asked : call.phase = .asked) (cached : state.l2 = some entry)
    (isValue : entry.value.isSome = true) (old : ¬ state.returned ≤ entry.read) :
    GoesStale state := by
  have taken : step state (.answer index false) = some { state with
      calls := state.calls.set index { call with phase := .answered (some entry) } } := by
    simp [step, found, asked, cached]
  have bound : index < state.calls.length := (List.getElem?_eq_some_iff.mp found).1
  have answered : (state.calls.set index { call with phase := .answered (some entry) })[index]? =
      some { call with phase := .answered (some entry) } := by
    simp [bound]
  exact goesStale_of_step taken (goesStale_hit answered rfl isValue old)

/-- A call that starts while the first tier is empty asks the second one. -/
theorem goesStale_l2 (cached : state.l2 = some entry) (isValue : entry.value.isSome = true)
    (old : ¬ state.returned ≤ entry.read) : GoesStale state := by
  have dropped : step state .dropL1 = some { state with l1 := none } := rfl
  apply goesStale_of_step dropped
  have started : step { state with l1 := none } (.call false false) =
      some (startCall { state with l1 := none } false false) := rfl
  apply goesStale_of_step started
  rw [startCall_miss rfl]
  let asked : Call V :=
    { fills := false, l2Only := false, floor := state.returned, phase := .asked }
  have found : (state.calls ++ [asked])[state.calls.length]? = some asked := by simp
  exact goesStale_asked found rfl cached isValue old

theorem goesStale_entries (member : entry ∈ entries state) (isValue : entry.value.isSome = true)
    (old : ¬ state.returned ≤ entry.read) : GoesStale state := by
  rcases mem_entries.mp member with first | second | pending | ⟨call, callMember, hit⟩
  · exact goesStale_l1 first isValue old
  · exact goesStale_l2 second isValue old
  · obtain ⟨index, found⟩ := List.getElem?_of_mem pending
    have taken : step state (.landWrite index false) = some
        { state with writes := state.writes.eraseIdx index, l2 := some entry } := by
      simp [step, found]
    exact goesStale_of_step taken (goesStale_l2 rfl isValue old)
  · obtain ⟨index, found⟩ := List.getElem?_of_mem callMember
    have answered : call.phase = .answered (some entry) := by
      unfold Call.hit at hit
      split at hit
      · rename_i same
        rw [same, hit]
      · cases hit
    exact goesStale_hit found answered isValue old

/-- A `getOrSet` that finds both tiers empty joins the loader that is in flight. -/
theorem goesStale_loader {loader : Loader V} (running : state.loader = some loader)
    (read : loader.read = some entry) (old : ¬ state.returned ≤ entry.read) :
    GoesStale state := by
  have dropped : step state .dropL1 = some { state with l1 := none } := rfl
  apply goesStale_of_step dropped
  have started : step { state with l1 := none } (.call true false) =
      some (startCall { state with l1 := none } true false) := rfl
  apply goesStale_of_step started
  rw [startCall_miss rfl]
  let asked : Call V :=
    { fills := true, l2Only := false, floor := state.returned, phase := .asked }
  let answered : Call V := { asked with phase := .answered none }
  let joined : Call V := { asked with phase := .joined }
  have answers : step { state with l1 := none, calls := state.calls ++ [asked] }
      (.answer state.calls.length true) =
      some { state with l1 := none, calls := state.calls ++ [answered] } := by
    simp [step, asked, answered]
  apply goesStale_of_step answers
  have resumes : step { state with l1 := none, calls := state.calls ++ [answered] }
      (.resume state.calls.length) =
      some { state with l1 := none, calls := state.calls ++ [joined] } := by
    simp [step, resumeCall, startsLoader, Call.answer, answerPhase, asked, answered, joined, running]
  apply goesStale_of_step resumes
  have loads : step { state with l1 := none, calls := state.calls ++ [joined] } .load =
      some (finishLoad { state with l1 := none, calls := state.calls ++ [joined] } loader.l2Only
        entry) := by
    simp [step, running, read]
  refine goesStale_of_step loads ⟨[], ?_⟩
  intro fresh
  apply old
  refine fresh { joined with phase := .yielded entry } ?_ entry rfl
  simp [finishLoad, settle, settleJoined, joined]

theorem goesStale_returns {index : Nat} (taken : step state (.returns index) = some next)
    (unclean : ¬ ReturnsClean state (.returns index)) : GoesStale next := by
  simp only [step] at taken
  split at taken
  · rename_i delete found
    obtain ⟨_, isNext⟩ := Option.ite_none_right_eq_some.mp taken
    obtain rfl := Option.some.inj isNext
    have notFresh : ¬ Fresh (max state.returned delete.number) state := by
      intro fresh
      apply unclean
      intro other same
      rw [found] at same
      obtain rfl := Option.some.inj same
      exact (fresh_max.mp fresh).2
    by_cases cached : ∀ entry ∈ entries state, entry.value.isSome = true →
        max state.returned delete.number ≤ entry.read
    · have loaded : ¬ ∀ loader ∈ state.loader, ∀ entry ∈ loader.read,
          max state.returned delete.number ≤ entry.read :=
        fun loaded => notFresh ⟨cached, loaded⟩
      simp only [not_forall] at loaded
      obtain ⟨loader, running, entry, read, old⟩ := loaded
      exact goesStale_loader running read old
    · simp only [not_forall] at cached
      obtain ⟨entry, member, isValue, old⟩ := cached
      exact goesStale_entries member isValue old
  · cases taken

end Stale

/-- If deletes return only when nothing older is cached or in flight, then no later call is given
a value from before them; and after one that returns otherwise some call can be. -/
theorem yieldsFresh_always :
    (∀ actions : List (Action V), Guarded step ReturnsClean State.start actions →
      Always step YieldsFresh State.start actions) ∧
    ∀ (state : State V) index next, step state (.returns index) = some next →
      ¬ ReturnsClean state (.returns index) →
      ∃ actions, ¬ Always step YieldsFresh next actions := by
  refine ⟨?_, ?_⟩
  · intro actions guarded
    have always := always_of_guarded step
      (fun state action next sound clean taken => sound_step sound clean taken)
      sound_start guarded
    exact always.mono _ fun state sound => sound.yields
  · intro state index next taken unclean
    exact goesStale_returns taken unclean

def isOlder (floor : Nat) (entry : CacheEntry V) : Bool :=
  entry.value.isSome && decide (entry.read < floor)

instance (floor : Nat) (state : State V) : Decidable (Fresh floor state) :=
  decidable_of_iff ((∀ entry ∈ entries state, isOlder floor entry = false) ∧
    ∀ loader ∈ state.loader, ∀ entry ∈ loader.read, floor ≤ entry.read) (by
      constructor
      · intro both
        refine ⟨fun entry member isValue => ?_, both.2⟩
        simpa [isOlder, isValue] using both.1 entry member
      · intro fresh
        refine ⟨fun entry member => ?_, fresh.loaded⟩
        cases isValue : entry.value.isSome with
        | true => simpa [isOlder, isValue] using fresh.cached entry member isValue
        | false => simp [isOlder, isValue])

instance (state : State V) (action : Action V) : Decidable (ReturnsClean state action) := by
  cases action <;> unfold ReturnsClean <;> infer_instance

/-! A value is loaded, deleted and asked for again. -/

def loadSeven : List (Action Nat) :=
  [.call true false, .answer 0 false, .resume 0, .read (some 7)]

def deleteAndAsk : List (Action Nat) :=
  [.delete, .landDelete 0 false, .returns 0, .load, .call false false]

theorem loaded_before_delete :
    Always step YieldsFresh State.start (loadSeven ++ [.load, .landWrite 0 false] ++
      [.delete, .landDelete 0 false, .returns 0, .call false false, .answer 1 false, .resume 1]) :=
  yieldsFresh_always.1 _ (by decide +kernel)

def isFresh (call : Call Nat) : Bool :=
  match call.phase with
  | .yielded entry => decide (call.floor ≤ entry.read)
  | _ => true

theorem isFresh_of_yieldsFresh (state : State Nat) (fresh : YieldsFresh state) :
    state.calls.all isFresh = true := by
  refine List.all_eq_true.mpr ?_
  intro call member
  unfold isFresh
  split
  · rename_i entry yields
    exact decide_eq_true (fresh call member entry yields)
  · rfl

/-- The loader that was in flight during the delete puts its older value back. -/
theorem load_outlives_delete :
    ¬ Always step YieldsFresh State.start (loadSeven ++ deleteAndAsk) :=
  not_always step (fun state => state.calls.all isFresh) isFresh_of_yieldsFresh (by decide +kernel)

end Cache
