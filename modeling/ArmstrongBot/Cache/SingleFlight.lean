import ArmstrongBot.Cache.Invalidation
import ArmstrongBot.Library.Totals

/-! How many loaders the calls of `getOrSet` start while nothing is deleted or expires, no loader
fails, and none brings `null`. -/

namespace Cache

open StepMachine Totals

variable {V : Type}

/-- The cache with the number of loaders started and the entries that the finished ones brought. -/
structure Flight (V : Type) where
  state : State V
  started : Nat
  brought : List (CacheEntry V)

def Flight.start : Flight V := { state := .start, started := 0, brought := [] }

def Undisturbed : Action V → Bool
  | .call fills _ => fills
  | .read value => value.isSome
  | .answer _ _ | .resume _ | .load | .landWrite _ _ => true
  | .failLoad | .delete | .landDelete _ _ | .returns _ | .dropL1 | .expireL2 => false

def startsOne (before after : Option (Loader V)) : Nat :=
  if before.isNone && after.isSome then 1 else 0

def broughtBy (state : State V) : Action V → List (CacheEntry V)
  | .load => (state.loader.bind Loader.read).toList
  | _ => []

def fly (flight : Flight V) (action : Action V) : Option (Flight V) :=
  if Undisturbed action then
    (step flight.state action).map fun next =>
      { state := next
        started := flight.started + startsOne flight.state.loader next.loader
        brought := flight.brought ++ broughtBy flight.state action }
  else none

def isCall : Action V → Bool
  | .call _ _ => true
  | _ => false

/-- A call waits for the loader in flight, or gives what a loader brought. -/
def Attended (flight : Flight V) (call : Call V) : Prop :=
  match call.phase with
  | .asked | .answered _ => True
  | .joined => flight.state.loader.isSome = true
  | .yielded entry => entry ∈ flight.brought
  | .missed | .failed => False

/-- At most one loader is started, the calls get what it brought, and all of them have it once
nothing but a further call can happen. -/
structure SingleFlight (flight : Flight V) : Prop where
  once : flight.started ≤ 1
  brought : flight.brought.length ≤ 1
  attended : ∀ call ∈ flight.state.calls, Attended flight call
  complete : (∀ action, isCall action = false → fly flight action = none) →
    ∀ call ∈ flight.state.calls, ∃ entry, call.phase = .yielded entry

/-- No call whose two lookups found nothing goes on after a loader is done. -/
def MissesInTime (flight : Flight V) : Action V → Prop
  | .resume index => ∀ call ∈ flight.state.calls[index]?, call.phase = .answered none →
      flight.brought = []
  | _ => True

/-! What is left to do for the calls, if no more of them come. -/

def phaseWork : Phase V → Int
  | .asked => 5
  | .answered _ => 4
  | _ => 0

def loaderWork : Option (Loader V) → Int
  | none => 0
  | some loader => if loader.read.isSome then 2 else 3

def work (state : State V) : Int :=
  total (fun call => phaseWork call.phase) state.calls + loaderWork state.loader +
    state.writes.length

/-- The invariant of the runs in which calls that miss go on in time. -/
structure Sole (flight : Flight V) : Prop where
  loads : flight.started = flight.brought.length + flight.state.loader.toList.length
  once : flight.started ≤ 1
  cached : ∀ entry ∈ entries flight.state, entry ∈ flight.brought
  values : ∀ entry ∈ flight.brought, entry.value.isSome = true
  read : ∀ loader ∈ flight.state.loader, ∀ entry ∈ loader.read, entry.value.isSome = true
  fills : ∀ call ∈ flight.state.calls, call.fills = true
  attended : ∀ call ∈ flight.state.calls, Attended flight call

theorem sole_start : Sole (Flight.start (V := V)) where
  loads := rfl
  once := Nat.zero_le _
  cached := by simp [entries, Flight.start, State.start]
  values := by simp [Flight.start]
  read := by simp [Flight.start, State.start]
  fills := by simp [Flight.start, State.start]
  attended := by simp [Flight.start, State.start]

section Steps

variable {flight next : Flight V}

theorem fly_step {action : Action V} (taken : fly flight action = some next) :
    Undisturbed action = true ∧ ∃ state, step flight.state action = some state ∧
      next = { state
               started := flight.started + startsOne flight.state.loader state.loader
               brought := flight.brought ++ broughtBy flight.state action } := by
  obtain ⟨undisturbed, isNext⟩ := Option.ite_none_right_eq_some.mp taken
  obtain ⟨state, stepped, rfl⟩ := Option.map_eq_some_iff.mp isNext
  exact ⟨undisturbed, state, stepped, rfl⟩

theorem answer_value {state : State V} {call : Call V} {entry : CacheEntry V}
    (isValue : entry.value.isSome = true) :
    call.answer (some entry) = { call with phase := .yielded entry } ∧
      startsLoader state call (some entry) = state.loader := by
  simp [Call.answer, startsLoader, answerPhase, isValue]

theorem answer_nothing {state : State V} {call : Call V} (fills : call.fills = true) :
    call.answer none = { call with phase := .joined } ∧
      startsLoader state call none =
        some (state.loader.getD { l2Only := call.l2Only, read := none }) := by
  simp [Call.answer, startsLoader, answerPhase, fills]

theorem startCall_value {state : State V} {fills l2Only : Bool} {entry : CacheEntry V}
    (hit : state.l1 = some entry) (isValue : entry.value.isSome = true) :
    startCall state fills l2Only =
      { state with
        calls := state.calls ++
          [{ fills, l2Only, floor := state.returned, phase := .yielded entry }] } := by
  obtain ⟨answer, loader⟩ := @answer_value _ state
    { fills, l2Only, floor := state.returned, phase := .asked } entry isValue
  rw [startCall_hit hit, loader, answer]

theorem startsOne_same (loader : Option (Loader V)) : startsOne loader loader = 0 := by
  cases loader <;> rfl

/-- Calls that were attended to stay so while loaders only come and entries are only brought. -/
theorem attended_mono {before after : Flight V} {call : Call V} (attended : Attended before call)
    (loading : before.state.loader.isSome = true → after.state.loader.isSome = true)
    (brought : ∀ entry ∈ before.brought, entry ∈ after.brought) : Attended after call := by
  unfold Attended at attended ⊢
  split at attended
  · trivial
  · trivial
  · exact loading attended
  · exact brought _ attended
  · exact attended
  · exact attended

/-- A step that leaves the loader alone and adds nothing to what is cached. -/
theorem sole_of_same (sole : Sole flight) {state : State V}
    (loader : state.loader = flight.state.loader)
    (cached : ∀ entry ∈ entries state, entry ∈ entries flight.state)
    (calls : ∀ call ∈ state.calls, call ∈ flight.state.calls ∨
      call.fills = true ∧ Attended flight call) :
    Sole { flight with state } where
  loads := by
    rw [loader]
    exact sole.loads
  once := sole.once
  cached := fun entry member => sole.cached entry (cached entry member)
  values := sole.values
  read := by
    rw [loader]
    exact sole.read
  fills := fun call member => (calls call member).elim (sole.fills call) And.left
  attended := fun call member =>
    attended_mono ((calls call member).elim (sole.attended call) And.right)
      (fun loading => loader ▸ loading) fun _ => id

theorem sole_startCall (sole : Sole flight) (l2Only : Bool) :
    Sole { flight with state := startCall flight.state true l2Only } := by
  have cached := @entries_startCall _ flight.state true l2Only
  cases hit : flight.state.l1 with
  | some entry =>
      have isEntry := sole.cached entry (mem_entries.mpr (.inl hit))
      rw [startCall_value hit (sole.values entry isEntry)] at cached ⊢
      refine sole_of_same sole rfl cached fun call member => ?_
      rcases List.mem_append.mp member with earlier | newest
      · exact .inl earlier
      · rw [List.mem_singleton.mp newest]
        exact .inr ⟨rfl, isEntry⟩
  | none =>
      rw [startCall_miss hit] at cached ⊢
      refine sole_of_same sole rfl cached fun call member => ?_
      rcases List.mem_append.mp member with earlier | newest
      · exact .inl earlier
      · rw [List.mem_singleton.mp newest]
        exact .inr ⟨rfl, trivial⟩

theorem sole_answer (sole : Sole flight) {index : Nat} {call : Call V}
    (found : flight.state.calls[index]? = some call) (fails : Bool) :
    Sole { flight with
      state := { flight.state with
        calls := flight.state.calls.set index
          { call with phase := .answered (if fails then none else flight.state.l2) } } } := by
  refine sole_of_same sole rfl entries_answer fun other member => ?_
  rcases mem_set_call member with earlier | rfl
  · exact .inl earlier
  · exact .inr ⟨sole.fills call (List.mem_of_getElem? found), trivial⟩

theorem sole_resume_hit (sole : Sole flight) {index : Nat} {call : Call V} {entry : CacheEntry V}
    (found : flight.state.calls[index]? = some call) (answered : call.phase = .answered (some entry)) :
    Sole { flight with state := resumeCall flight.state index call (some entry) } := by
  have isEntry := sole.cached entry (mem_entries_answered found answered)
  obtain ⟨answer, loader⟩ := @answer_value _ flight.state call entry (sole.values entry isEntry)
  refine sole_of_same sole loader (entries_resumeCall found answered) fun other member => ?_
  rcases mem_set_call member with earlier | rfl
  · exact .inl earlier
  · rw [answer]
    exact .inr ⟨sole.fills call (List.mem_of_getElem? found), isEntry⟩

theorem sole_resume_miss (sole : Sole flight) {index : Nat} {call : Call V}
    (found : flight.state.calls[index]? = some call) (answered : call.phase = .answered none)
    (inTime : flight.brought = []) :
    Sole { flight with
      state := resumeCall flight.state index call none
      started := flight.started +
        startsOne flight.state.loader (resumeCall flight.state index call none).loader } := by
  have fills := sole.fills call (List.mem_of_getElem? found)
  obtain ⟨answer, loader⟩ := @answer_nothing _ flight.state call fills
  have loads := sole.loads
  have running : (resumeCall flight.state index call none).loader =
      some (flight.state.loader.getD { l2Only := call.l2Only, read := none }) := loader
  rw [inTime] at loads
  have started : flight.started +
      startsOne flight.state.loader (resumeCall flight.state index call none).loader = 1 := by
    rw [running, loads]
    cases flight.state.loader <;> rfl
  exact {
    loads := by
      dsimp only
      rw [started, running, inTime]
      rfl
    once := Nat.le_of_eq started
    cached := fun entry member =>
      sole.cached entry (entries_resumeCall found answered entry member)
    values := sole.values
    read := by
      intro other isLoader entry isRead
      rw [Option.mem_def, running, Option.some.injEq] at isLoader
      cases before : flight.state.loader with
      | none =>
          rw [before] at isLoader
          rw [← isLoader] at isRead
          cases isRead
      | some loader =>
          rw [before] at isLoader
          exact sole.read other (by rw [before, ← isLoader]; rfl) entry isRead
    fills := by
      intro other member
      rcases mem_set_call member with earlier | rfl
      · exact sole.fills other earlier
      · rw [answer]
        exact fills
    attended := by
      intro other member
      have loading : (resumeCall flight.state index call none).loader.isSome = true := by
        rw [running]
        rfl
      rcases mem_set_call member with earlier | rfl
      · exact attended_mono (sole.attended other earlier) (fun _ => loading) fun _ => id
      · rw [answer]
        exact loading }

theorem sole_read (sole : Sole flight) {loader : Loader V} (running : flight.state.loader = some loader)
    {value : Option V} (isValue : value.isSome = true) :
    Sole { flight with
      state := { flight.state with
        loader := some { loader with read := some { value, read := flight.state.called } } } } where
  loads := by
    have loads := sole.loads
    rw [running] at loads
    exact loads
  once := sole.once
  cached := sole.cached
  values := sole.values
  read := by
    rintro _ ⟨⟩ _ ⟨⟩
    exact isValue
  fills := sole.fills
  attended := fun call member =>
    attended_mono (sole.attended call member) (fun _ => rfl) fun _ => id

theorem sole_finishLoad (sole : Sole flight) {loader : Loader V} {entry : CacheEntry V}
    (running : flight.state.loader = some loader) (read : loader.read = some entry) (l2Only : Bool) :
    Sole { flight with
      state := finishLoad flight.state l2Only entry
      brought := flight.brought ++ [entry] } where
  loads := by
    have loads := sole.loads
    rw [running] at loads
    simpa [finishLoad, settle] using loads
  once := sole.once
  cached := by
    intro other member
    rcases entries_finishLoad other member with before | rfl
    · exact List.mem_append_left _ (sole.cached other before)
    · exact List.mem_append_right _ List.mem_cons_self
  values := by
    intro other member
    rcases List.mem_append.mp member with before | newest
    · exact sole.values other before
    · rw [List.mem_singleton.mp newest]
      exact sole.read loader running entry read
  read := nofun
  fills := by
    intro call member
    rcases mem_settleJoined member with earlier | ⟨joined, isJoined, rfl⟩
    · exact sole.fills call earlier
    · exact sole.fills joined isJoined
  attended := by
    intro call member
    obtain ⟨before, isBefore, rfl⟩ := List.mem_map.mp member
    have attended := sole.attended before isBefore
    have isBrought : entry ∈ flight.brought ++ [entry] := by simp
    cases phase : before.phase <;> simp_all [settleJoined, Attended]

theorem sole_landWrite (sole : Sole flight) {index : Nat} {entry : CacheEntry V}
    (pending : flight.state.writes[index]? = some entry) (fails : Bool) :
    Sole { flight with
      state := { flight.state with
        writes := flight.state.writes.eraseIdx index
        l2 := if fails then flight.state.l2 else some entry } } :=
  sole_of_same sole rfl (entries_landWrite pending) fun _ => .inl

theorem startCall_loader (sole : Sole flight) (fills l2Only : Bool) :
    (startCall flight.state fills l2Only).loader = flight.state.loader := by
  cases hit : flight.state.l1 with
  | some entry =>
      have isEntry := sole.cached entry (mem_entries.mpr (.inl hit))
      rw [startCall_value hit (sole.values entry isEntry)]
  | none => rw [startCall_miss hit]

theorem sole_step {action : Action V} (sole : Sole flight) (inTime : MissesInTime flight action)
    (taken : fly flight action = some next) : Sole next := by
  obtain ⟨undisturbed, state, stepped, rfl⟩ := fly_step taken
  cases action with
  | call fills l2Only =>
      obtain rfl : fills = true := undisturbed
      obtain rfl := Option.some.inj stepped
      rw [startCall_loader sole, startsOne_same]
      simpa [broughtBy] using sole_startCall sole l2Only
  | answer index fails =>
      obtain ⟨call, found, -, rfl⟩ := step_answer stepped
      rw [startsOne_same]
      simpa [broughtBy] using sole_answer sole found fails
  | resume index =>
      obtain ⟨call, hit, found, answered, rfl⟩ := step_resume stepped
      cases hit with
      | some entry =>
          have isEntry := sole.cached entry (mem_entries_answered found answered)
          have loader : (resumeCall flight.state index call (some entry)).loader =
              flight.state.loader := (answer_value (sole.values entry isEntry)).2
          rw [loader, startsOne_same]
          simpa [broughtBy] using sole_resume_hit sole found answered
      | none =>
          simpa [broughtBy] using sole_resume_miss sole found answered (inTime call found answered)
  | read value =>
      obtain ⟨loader, running, -, rfl⟩ := step_read stepped
      have kept := sole_read sole running undisturbed
      simpa [broughtBy, startsOne, running] using kept
  | load =>
      obtain ⟨loader, entry, running, read, rfl⟩ := step_load stepped
      have kept := sole_finishLoad sole running read loader.l2Only
      simpa [broughtBy, startsOne, running, read, finishLoad, settle] using kept
  | landWrite index fails =>
      obtain ⟨entry, pending, rfl⟩ := Option.map_eq_some_iff.mp stepped
      rw [startsOne_same]
      simpa [broughtBy] using sole_landWrite sole pending fails
  | failLoad | delete | landDelete | returns | dropL1 | expireL2 => cases undisturbed

theorem fly_some {action : Action V} (undisturbed : Undisturbed action = true)
    (enabled : (step flight.state action).isSome = true) : fly flight action ≠ none := by
  obtain ⟨state, stepped⟩ := Option.isSome_iff_exists.mp enabled
  simp [fly, undisturbed, stepped]

theorem Sole.complete [Inhabited V] (sole : Sole flight)
    (idle : ∀ action, isCall action = false → fly flight action = none) :
    ∀ call ∈ flight.state.calls, ∃ entry, call.phase = .yielded entry := by
  intro call member
  obtain ⟨index, found⟩ := List.getElem?_of_mem member
  have attended := sole.attended call member
  unfold Attended at attended
  split at attended
  · rename_i asked
    refine absurd (idle (.answer index false) rfl) (fly_some rfl ?_)
    simp [step, found, asked]
  · rename_i hit answered
    refine absurd (idle (.resume index) rfl) (fly_some rfl ?_)
    simp [step, found, answered]
  · obtain ⟨loader, running⟩ := Option.isSome_iff_exists.mp attended
    cases read : loader.read with
    | none =>
        refine absurd (idle (.read (some default)) rfl) (fly_some rfl ?_)
        simp [step, running, read]
    | some entry =>
        refine absurd (idle .load rfl) (fly_some rfl ?_)
        simp [step, running, read]
  · rename_i entry yields
    exact ⟨entry, yields⟩
  · exact attended.elim
  · exact attended.elim

theorem Sole.singleFlight [Inhabited V] (sole : Sole flight) : SingleFlight flight where
  once := sole.once
  brought := by
    have loads := sole.loads
    have once := sole.once
    omega
  attended := sole.attended
  complete := sole.complete

/-- A second loader is started by a call that goes on too late. -/
theorem missesInTime_of_once {action : Action V} (sole : Sole flight)
    (taken : fly flight action = some next) (once : next.started ≤ 1) :
    MissesInTime flight action := by
  cases action with
  | resume index =>
      intro call found answered
      obtain ⟨-, state, stepped, rfl⟩ := fly_step taken
      obtain ⟨other, hit, isFound, isAnswered, rfl⟩ := step_resume stepped
      obtain rfl : other = call := Option.some.inj (isFound.symm.trans found)
      obtain rfl : hit = none := by simpa [isAnswered] using answered
      have fills := sole.fills other (List.mem_of_getElem? found)
      have running : (resumeCall flight.state index other none).loader =
          some (flight.state.loader.getD { l2Only := other.l2Only, read := none }) :=
        (answer_nothing fills).2
      have loads := sole.loads
      dsimp only at once
      rw [running] at once
      cases before : flight.state.loader with
      | none =>
          have starts : startsOne (none : Option (Loader V))
              (some ((none : Option (Loader V)).getD { l2Only := other.l2Only, read := none })) = 1 :=
            rfl
          rw [before, starts] at once
          rw [before, Option.toList_none, List.length_nil] at loads
          exact List.eq_nil_of_length_eq_zero (by omega)
      | some loader =>
          have one := sole.once
          rw [before, Option.toList_some, List.length_singleton] at loads
          exact List.eq_nil_of_length_eq_zero (by omega)
  | call | answer | read | load | failLoad | landWrite | delete | landDelete | returns | dropL1
  | expireL2 => trivial

theorem total_settleJoined (entry : CacheEntry V) (calls : List (Call V)) :
    total (fun call => phaseWork call.phase) (calls.map (settleJoined (.yielded entry))) =
      total (fun call => phaseWork call.phase) calls := by
  rw [total_map]
  refine total_congr fun call _ => ?_
  cases phase : call.phase <;> simp [settleJoined, phase, phaseWork]

theorem loaderWork_nonneg (loader : Option (Loader V)) : 0 ≤ loaderWork loader := by
  cases loader with
  | none => exact Int.le_refl 0
  | some loader =>
      simp only [loaderWork]
      split <;> omega

theorem loaderWork_starts (state : State V) (call : Call V) (hit : Option (CacheEntry V)) :
    loaderWork (startsLoader state call hit) ≤ loaderWork state.loader + 3 := by
  unfold startsLoader
  split
  · cases state.loader with
    | none => exact Int.le_refl _
    | some loader => exact Int.le_add_of_nonneg_right (by decide)
  · exact Int.le_add_of_nonneg_right (by decide)

theorem phaseWork_answer (call : Call V) (hit : Option (CacheEntry V)) :
    phaseWork (call.answer hit).phase = 0 := by
  cases hit with
  | none => cases fills : call.fills <;> simp [Call.answer, answerPhase, fills, phaseWork]
  | some entry =>
      cases isValue : entry.value.isSome <;> cases fills : call.fills <;>
        simp [Call.answer, answerPhase, isValue, fills, phaseWork]

theorem work_nonneg (state : State V) : 0 ≤ work state := by
  have calls : 0 ≤ total (fun call : Call V => phaseWork call.phase) state.calls :=
    total_nonneg fun call _ => by cases call.phase <;> simp [phaseWork]
  have loader := loaderWork_nonneg state.loader
  unfold work
  omega

theorem work_step {action : Action V} (noCall : isCall action = false)
    (taken : fly flight action = some next) : work next.state < work flight.state := by
  obtain ⟨undisturbed, state, stepped, rfl⟩ := fly_step taken
  cases action with
  | call => cases noCall
  | answer index fails =>
      obtain ⟨call, found, asked, rfl⟩ := step_answer stepped
      simp only [work]
      rw [total_set _ found, asked]
      simp only [phaseWork]
      omega
  | resume index =>
      obtain ⟨call, hit, found, answered, rfl⟩ := step_resume stepped
      have starts := loaderWork_starts flight.state call hit
      simp only [work, resumeCall]
      rw [total_set _ found, phaseWork_answer, answered]
      simp only [phaseWork]
      omega
  | read value =>
      obtain ⟨loader, running, unread, rfl⟩ := step_read stepped
      simp only [work, running, loaderWork, unread, Option.isSome_none, Option.isSome_some,
        if_true]
      simp
  | load =>
      obtain ⟨loader, entry, running, read, rfl⟩ := step_load stepped
      simp only [work, finishLoad, settle, total_settleJoined, running, loaderWork, read,
        Option.isSome_some, if_true, List.length_append, List.length_singleton]
      omega
  | landWrite index fails =>
      obtain ⟨entry, pending, rfl⟩ := Option.map_eq_some_iff.mp stepped
      have bound := (List.getElem?_eq_some_iff.mp pending).1
      simp only [work, List.length_eraseIdx_of_lt bound]
      omega
  | failLoad | delete | landDelete | returns | dropL1 | expireL2 => cases undisturbed

end Steps

/-- The calls start one loader and give what it brought exactly when no call that missed goes on
after the loader is done; and a run without further calls ends. -/
theorem single_flight_iff [Inhabited V] :
    (∀ actions : List (Action V),
      Always fly SingleFlight Flight.start actions ↔ Guarded fly MissesInTime Flight.start actions) ∧
    ∀ (flight next : Flight V) (action : Action V), isCall action = false →
      fly flight action = some next →
      0 ≤ work next.state ∧ work next.state < work flight.state := by
  constructor
  · intro actions
    refine always_iff_guarded fly (fun flight sole => sole.singleFlight)
      (fun flight action next sole inTime taken => sole_step sole inTime taken)
      (fun flight action next sole taken right => missesInTime_of_once sole taken right.once)
      sole_start actions
  · intro flight next action noCall taken
    exact ⟨work_nonneg next.state, work_step noCall taken⟩

instance [DecidableEq V] (flight : Flight V) (action : Action V) :
    Decidable (MissesInTime flight action) :=
  match action with
  | .resume index => decidable_of_iff
      (∀ call ∈ flight.state.calls[index]?, call.phase ≠ .answered none ∨ flight.brought = [])
      (forall_congr' fun _ => forall_congr' fun _ => imp_iff_not_or.symm)
  | .call _ _ | .answer _ _ | .read _ | .load | .failLoad | .landWrite _ _ | .delete
  | .landDelete _ _ | .returns _ | .dropL1 | .expireL2 => .isTrue trivial

def joinedCalls : List (Action Nat) :=
  [.call true false, .call true false, .answer 0 false, .resume 0, .read (some 7),
    .answer 1 false, .resume 1, .load, .call true false]

theorem single_flight_loads_once :
    Always fly SingleFlight Flight.start joinedCalls ∧
      ∀ flight ∈ run fly Flight.start (joinedCalls.take 7), ∀ next, fly flight .load = some next →
        work next.state < work flight.state :=
  ⟨(single_flight_iff.1 joinedCalls).mpr (by decide +kernel), fun flight _ next taken =>
    (single_flight_iff.2 flight next .load rfl taken).2⟩

/-! Two calls ask Redis while nothing is cached, and the second goes on when the loader of the first
is done. -/

def lateMiss : List (Action Nat) :=
  [.call true false, .call true false, .answer 0 false, .resume 0, .read (some 7),
    .answer 1 false, .load, .resume 1]

theorem late_miss_loads_again : ¬ Always fly SingleFlight Flight.start lateMiss :=
  not_always fly (fun flight => decide (flight.started ≤ 1))
    (fun _ single => decide_eq_true single.once) (by decide +kernel)

end Cache
