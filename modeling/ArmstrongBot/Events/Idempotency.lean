import ArmstrongBot.Events.Bus
import ArmstrongBot.Library.StepMachine
import Mathlib.Data.Fintype.Basic
import Mathlib.Logic.Function.Basic

/-! Interleaved publishes of one event under one idempotency key. The awaits of
`EventBusService.publish` cut it into steps, each of which but the check and the mark may fail. -/

namespace Events

open JsText JobQueue StepMachine

/-- The calls of `publish` with one event name and key, retries included. -/
structure Repeated (ι : Type*) where
  name : JsString
  key : JsString
  envelope : ι → EventEnvelope
  delivery : ι → DeliveryPolicy
  idempotent : (getEventPolicy name).idempotent = true
  keyGiven : key ≠ []
  named : ∀ caller, (envelope caller).name = name
  keyed : ∀ caller, (envelope caller).idempotencyKey = some key

/-- Where a call stands: before the check, before the mark, or before one of the stages behind. -/
inductive Phase
  | idle
  | unseen
  | persisting
  | dispatching
  | enqueuing
  | returned
  | failed
  deriving DecidableEq

/-- `dispatched` and `added` name the calls whose dispatch has completed and whose job the queue
has taken. -/
structure Publishing (ι : Type*) where
  runtime : Runtime
  phase : ι → Phase
  dispatched : List ι
  added : List ι

def Publishing.start (ι : Type*) (registries : Registries) : Publishing ι :=
  { runtime := .start registries, phase := fun _ => .idle, dispatched := [], added := [] }

/-- `other` is a publish that does not use the key and `work` the work on a job; in a dispatch
that fails some handlers have already run. -/
inductive PublishAction (ι : Type*)
  | check (caller : ι)
  | mark (caller : ι)
  | proceed (caller : ι)
  | fail (caller : ι) (handled : Nat)
  | other (envelope : EventEnvelope) (delivery : DeliveryPolicy)
  | work (jobId : JsString)

def afterMark (delivery : DeliveryPolicy) : Phase :=
  if delivery.usesAsync then .persisting else .dispatching

def afterPersist (delivery : DeliveryPolicy) : Phase :=
  if delivery.usesSync then .dispatching else .enqueuing

def afterDispatch (delivery : DeliveryPolicy) : Phase :=
  if delivery.usesAsync then .enqueuing else .returned

section

variable {ι : Type*} [DecidableEq ι]

def Publishing.moveTo (state : Publishing ι) (caller : ι) (phase : Phase) : Publishing ι :=
  { state with phase := Function.update state.phase caller phase }

variable (calls : Repeated ι)

def proceed (state : Publishing ι) (caller : ι) : Option (Publishing ι) :=
  match state.phase caller with
  | .persisting =>
      some { state.moveTo caller (afterPersist (calls.delivery caller)) with
        runtime := persist state.runtime (calls.envelope caller) (calls.delivery caller) }
  | .dispatching =>
      some { state.moveTo caller (afterDispatch (calls.delivery caller)) with
        runtime := dispatch state.runtime (calls.envelope caller)
        dispatched := state.dispatched ++ [caller] }
  | .enqueuing =>
      some { state.moveTo caller .returned with
        runtime := enqueue state.runtime (calls.envelope caller)
        added := if jobIdOf (calls.envelope caller) ∈ ids state.runtime.queue then state.added
          else state.added ++ [caller] }
  | _ => none

def fail (state : Publishing ι) (caller : ι) (handled : Nat) : Option (Publishing ι) :=
  match state.phase caller with
  | .persisting | .enqueuing => some (state.moveTo caller .failed)
  | .dispatching =>
      some { state.moveTo caller .failed with
        runtime := invoke state.runtime (calls.envelope caller)
          (state.runtime.registries.sync.take handled) }
  | _ => none

def publishStep (state : Publishing ι) : PublishAction ι → Option (Publishing ι)
  | .check caller =>
      if state.phase caller = .idle then
        some (state.moveTo caller
          (if isDuplicate state.runtime calls.key then .returned else .unseen))
      else none
  | .mark caller =>
      if state.phase caller = .unseen then
        some { state.moveTo caller (afterMark (calls.delivery caller)) with
          runtime := markSeen state.runtime calls.key }
      else none
  | .proceed caller => proceed calls state caller
  | .fail caller handled => fail calls state caller handled
  | .other envelope delivery =>
      if guardKey envelope = some calls.key ∨ jobIdOf envelope = calls.key then none
      else some { state with runtime := publish state.runtime envelope delivery }
  | .work jobId => some { state with runtime := work state.runtime jobId }

/-- No dispatcher is given the event twice, and once a call has returned, some call has given it
to every dispatcher that its delivery names. -/
def ExactlyOnce (state : Publishing ι) : Prop :=
  state.dispatched.length ≤ 1 ∧ state.added.length ≤ 1 ∧
    ∀ caller, state.phase caller = .returned → ∃ accepted,
      ((calls.delivery accepted).usesSync = true → state.dispatched = [accepted]) ∧
        ((calls.delivery accepted).usesAsync = true → state.added = [accepted])

/-- A call that finds the key marked comes after one that has returned, and a call that marks the
key has not been overtaken by the mark of another one since its check. -/
def Unraced (state : Publishing ι) : PublishAction ι → Prop
  | .check _ => calls.key ∈ state.runtime.seen → ∃ caller, state.phase caller = .returned
  | .mark _ => calls.key ∉ state.runtime.seen
  | _ => True

instance [Fintype ι] (state : Publishing ι) (action : PublishAction ι) :
    Decidable (Unraced calls state action) := by
  cases action <;> unfold Unraced <;> infer_instance

omit [DecidableEq ι] in
theorem jobIdOf_repeated (caller : ι) : jobIdOf (calls.envelope caller) = calls.key := by
  rw [jobIdOf, calls.keyed caller, Option.getD_some]

omit [DecidableEq ι] in
theorem guardKey_repeated (caller : ι) : guardKey (calls.envelope caller) = some calls.key := by
  rw [guardKey, calls.named caller, calls.idempotent, calls.keyed caller]
  simp [calls.keyGiven]

/-- The call that has marked the key, with what it has delivered by each of its stages. -/
inductive Led (leader : ι) (state : Publishing ι) : Prop
  | persisting : state.phase leader = .persisting → (calls.delivery leader).usesAsync = true →
      calls.key ∉ ids state.runtime.queue → state.dispatched = [] → state.added = [] →
      Led leader state
  | dispatching : state.phase leader = .dispatching → (calls.delivery leader).usesSync = true →
      calls.key ∉ ids state.runtime.queue → state.dispatched = [] → state.added = [] →
      Led leader state
  | enqueuing : state.phase leader = .enqueuing → (calls.delivery leader).usesAsync = true →
      calls.key ∉ ids state.runtime.queue →
      state.dispatched = (if (calls.delivery leader).usesSync then [leader] else []) →
      state.added = [] → Led leader state
  | returned : state.phase leader = .returned →
      state.dispatched = (if (calls.delivery leader).usesSync then [leader] else []) →
      state.added = (if (calls.delivery leader).usesAsync then [leader] else []) →
      Led leader state
  | failed : state.phase leader = .failed → state.dispatched.length ≤ 1 → state.added = [] →
      Led leader state

/-- Until a call marks the key nothing is delivered; from then on only this call delivers, and the
others return only after it. -/
inductive OneLeader (state : Publishing ι) : Prop
  | unmarked : calls.key ∉ state.runtime.seen → calls.key ∉ ids state.runtime.queue →
      (∀ caller, state.phase caller = .idle ∨ state.phase caller = .unseen) →
      state.dispatched = [] → state.added = [] → OneLeader state
  | marked (leader : ι) : calls.key ∈ state.runtime.seen →
      (∀ caller, caller ≠ leader → state.phase caller = .idle ∨ state.phase caller = .unseen ∨
        state.phase caller = .returned ∧ state.phase leader = .returned) →
      Led calls leader state → OneLeader state

variable {calls}

omit [DecidableEq ι] in
theorem Led.exactlyOnce {leader : ι} {state : Publishing ι} (led : Led calls leader state)
    (others : ∀ caller, caller ≠ leader → state.phase caller = .idle ∨ state.phase caller = .unseen ∨
      state.phase caller = .returned ∧ state.phase leader = .returned) :
    ExactlyOnce calls state := by
  have after {caller : ι} (returned : state.phase caller = .returned) :
      state.phase leader = .returned := by
    by_cases isLeader : caller = leader
    · rwa [← isLeader]
    · rcases others caller isLeader with phase | phase | ⟨_, phase⟩
      · simp [returned] at phase
      · simp [returned] at phase
      · exact phase
  cases led with
  | persisting phase _ _ dispatched added | dispatching phase _ _ dispatched added =>
      refine ⟨by simp [dispatched], by simp [added], fun caller returned => ?_⟩
      simp [after returned] at phase
  | enqueuing phase _ _ dispatched added =>
      refine ⟨?_, by simp [added], fun caller returned => ?_⟩
      · rw [dispatched]
        split <;> simp
      · simp [after returned] at phase
  | returned phase dispatched added =>
      rw [ExactlyOnce, dispatched, added]
      refine ⟨by split <;> simp, by split <;> simp, fun _ _ => ⟨leader, ?_, ?_⟩⟩
      · intro usesSync
        rw [if_pos usesSync]
      · intro usesAsync
        rw [if_pos usesAsync]
  | failed phase dispatched added =>
      refine ⟨dispatched, by simp [added], fun caller returned => ?_⟩
      simp [after returned] at phase

omit [DecidableEq ι] in
theorem OneLeader.exactlyOnce {state : Publishing ι} (invariant : OneLeader calls state) :
    ExactlyOnce calls state := by
  cases invariant with
  | unmarked _ _ phases dispatched added =>
      refine ⟨by simp [dispatched], by simp [added], fun caller returned => ?_⟩
      rcases phases caller with phase | phase <;> simp [returned] at phase
  | marked leader _ others led => exact led.exactlyOnce others

/-! What each action keeps. -/

omit [DecidableEq ι] in
theorem Led.congr {leader : ι} {state next : Publishing ι} (led : Led calls leader state)
    (phase : next.phase leader = state.phase leader)
    (queue : calls.key ∈ ids next.runtime.queue → calls.key ∈ ids state.runtime.queue)
    (dispatched : next.dispatched = state.dispatched) (added : next.added = state.added) :
    Led calls leader next := by
  cases led with
  | persisting at_ uses fresh =>
      exact .persisting (phase.trans at_) uses (fun member => fresh (queue member))
        (by rwa [dispatched]) (by rwa [added])
  | dispatching at_ uses fresh =>
      exact .dispatching (phase.trans at_) uses (fun member => fresh (queue member))
        (by rwa [dispatched]) (by rwa [added])
  | enqueuing at_ uses fresh =>
      exact .enqueuing (phase.trans at_) uses (fun member => fresh (queue member))
        (by rwa [dispatched]) (by rwa [added])
  | returned at_ => exact .returned (phase.trans at_) (by rwa [dispatched]) (by rwa [added])
  | failed at_ => exact .failed (phase.trans at_) (by rwa [dispatched]) (by rwa [added])

omit [DecidableEq ι] in
theorem OneLeader.environment {state : Publishing ι} (invariant : OneLeader calls state)
    {runtime : Runtime} (seen : calls.key ∈ runtime.seen ↔ calls.key ∈ state.runtime.seen)
    (queue : calls.key ∈ ids runtime.queue → calls.key ∈ ids state.runtime.queue) :
    OneLeader calls { state with runtime } := by
  cases invariant with
  | unmarked unseen fresh phases dispatched added =>
      exact .unmarked (fun member => unseen (seen.mp member)) (fun member => fresh (queue member))
        phases dispatched added
  | marked leader marked others led =>
      exact .marked leader (seen.mpr marked) others (led.congr rfl queue rfl rfl)

theorem moveTo_same (state : Publishing ι) (caller : ι) (phase : Phase) :
    (state.moveTo caller phase).phase caller = phase := by
  simp only [Publishing.moveTo, Function.update_self]

theorem moveTo_other {state : Publishing ι} {caller other : ι} (phase : Phase)
    (apart : other ≠ caller) : (state.moveTo caller phase).phase other = state.phase other := by
  simp only [Publishing.moveTo, Function.update_of_ne apart]

theorem oneLeader_check {state : Publishing ι} (invariant : OneLeader calls state) {caller : ι}
    (idle : state.phase caller = .idle) (unraced : Unraced calls state (.check caller)) :
    OneLeader calls (state.moveTo caller
      (if isDuplicate state.runtime calls.key then .returned else .unseen)) := by
  cases invariant with
  | unmarked unseen fresh phases dispatched added =>
      rw [isDuplicate, decide_eq_false unseen]
      refine .unmarked unseen fresh ?_ dispatched added
      intro other
      by_cases isCaller : other = caller
      · subst isCaller
        exact Or.inr (moveTo_same state other _)
      · rw [moveTo_other _ isCaller]
        exact phases other
  | marked leader marked others led =>
      rw [isDuplicate, decide_eq_true marked, if_pos rfl]
      have apart : leader ≠ caller := by
        rintro rfl
        cases led <;> simp_all
      have leads : state.phase leader = .returned := by
        obtain ⟨first, returned⟩ := unraced marked
        by_cases isLeader : first = leader
        · rwa [← isLeader]
        · rcases others first isLeader with phase | phase | ⟨_, phase⟩
          · simp [returned] at phase
          · simp [returned] at phase
          · exact phase
      refine .marked leader marked ?_ (led.congr (moveTo_other _ apart) id rfl rfl)
      intro other notLeader
      rw [moveTo_other _ apart]
      by_cases isCaller : other = caller
      · subst isCaller
        exact Or.inr (Or.inr ⟨moveTo_same state other _, leads⟩)
      · rw [moveTo_other _ isCaller]
        exact others other notLeader

theorem oneLeader_mark {state : Publishing ι} (invariant : OneLeader calls state) {caller : ι}
    (unraced : Unraced calls state (.mark caller)) :
    OneLeader calls { state.moveTo caller (afterMark (calls.delivery caller)) with
      runtime := markSeen state.runtime calls.key } := by
  cases invariant with
  | unmarked unseen fresh phases dispatched added =>
      refine .marked caller (by simp [markSeen]) ?_ ?_
      · intro other apart
        refine (phases other).imp ?_ fun phase => Or.inl ?_
        · exact (moveTo_other _ apart).trans
        · exact (moveTo_other _ apart).trans phase
      · have phase := moveTo_same state caller (afterMark (calls.delivery caller))
        cases delivery : calls.delivery caller with
        | sync =>
            rw [delivery] at phase
            exact .dispatching phase (by rw [delivery]; rfl) fresh dispatched added
        | async | both =>
            rw [delivery] at phase
            exact .persisting phase (by rw [delivery]; rfl) fresh dispatched added
  | marked leader marked others led => exact absurd marked unraced

theorem OneLeader.led {state : Publishing ι} (invariant : OneLeader calls state) (caller : ι)
    (behind : state.phase caller ≠ .idle ∧ state.phase caller ≠ .unseen ∧
      state.phase caller ≠ .returned) :
    calls.key ∈ state.runtime.seen ∧ Led calls caller state ∧
      ∀ other, other ≠ caller → state.phase other = .idle ∨ state.phase other = .unseen := by
  obtain ⟨notIdle, notUnseen, notReturned⟩ := behind
  cases invariant with
  | unmarked unseen fresh phases dispatched added =>
      rcases phases caller with phase | phase
      · exact absurd phase notIdle
      · exact absurd phase notUnseen
  | marked leader marked others led =>
      have isLeader : caller = leader := by
        by_contra apart
        rcases others caller apart with phase | phase | ⟨phase, _⟩
        · exact notIdle phase
        · exact notUnseen phase
        · exact notReturned phase
      subst isLeader
      refine ⟨marked, led, fun other apart => ?_⟩
      rcases others other apart with phase | phase | ⟨_, phase⟩
      · exact Or.inl phase
      · exact Or.inr phase
      · exact absurd phase notReturned

theorem oneLeader_moved {state : Publishing ι} {caller : ι} {phase : Phase} {runtime : Runtime}
    {dispatched added : List ι} (marked : calls.key ∈ runtime.seen)
    (others : ∀ other, other ≠ caller → state.phase other = .idle ∨ state.phase other = .unseen)
    (led : Led calls caller { state.moveTo caller phase with runtime, dispatched, added }) :
    OneLeader calls { state.moveTo caller phase with runtime, dispatched, added } := by
  refine .marked caller marked ?_ led
  intro other apart
  refine (others other apart).imp ?_ fun waiting => Or.inl ?_
  · exact (moveTo_other _ apart).trans
  · exact (moveTo_other _ apart).trans waiting

omit [DecidableEq ι] in
theorem Led.atPersisting {leader : ι} {state : Publishing ι} (led : Led calls leader state)
    (phase : state.phase leader = .persisting) :
    (calls.delivery leader).usesAsync = true ∧ calls.key ∉ ids state.runtime.queue ∧
      state.dispatched = [] ∧ state.added = [] := by
  cases led <;> simp_all

omit [DecidableEq ι] in
theorem Led.atDispatching {leader : ι} {state : Publishing ι} (led : Led calls leader state)
    (phase : state.phase leader = .dispatching) :
    (calls.delivery leader).usesSync = true ∧ calls.key ∉ ids state.runtime.queue ∧
      state.dispatched = [] ∧ state.added = [] := by
  cases led <;> simp_all

omit [DecidableEq ι] in
theorem Led.atEnqueuing {leader : ι} {state : Publishing ι} (led : Led calls leader state)
    (phase : state.phase leader = .enqueuing) :
    (calls.delivery leader).usesAsync = true ∧ calls.key ∉ ids state.runtime.queue ∧
      state.dispatched = (if (calls.delivery leader).usesSync then [leader] else []) ∧
      state.added = [] := by
  cases led <;> simp_all

theorem led_afterPersist {state : Publishing ι} {caller : ι} (led : Led calls caller state)
    (phase : state.phase caller = .persisting) (runtime : Runtime)
    (queue : runtime.queue = state.runtime.queue) :
    Led calls caller { state.moveTo caller (afterPersist (calls.delivery caller)) with runtime } := by
  obtain ⟨usesAsync, fresh, dispatched, added⟩ := led.atPersisting phase
  rw [← queue] at fresh
  have moved := moveTo_same state caller (afterPersist (calls.delivery caller))
  cases delivery : (calls.delivery caller).usesSync with
  | true =>
      have next : _ = Phase.dispatching := moved.trans (by simp [afterPersist, delivery])
      exact .dispatching next delivery fresh dispatched added
  | false =>
      have next : _ = Phase.enqueuing := moved.trans (by simp [afterPersist, delivery])
      exact .enqueuing next usesAsync fresh (dispatched.trans (by simp [delivery])) added

theorem led_afterDispatch {state : Publishing ι} {caller : ι} (led : Led calls caller state)
    (phase : state.phase caller = .dispatching) (runtime : Runtime)
    (queue : runtime.queue = state.runtime.queue) :
    Led calls caller { state.moveTo caller (afterDispatch (calls.delivery caller)) with
      runtime, dispatched := state.dispatched ++ [caller] } := by
  obtain ⟨usesSync, fresh, dispatched, added⟩ := led.atDispatching phase
  rw [← queue] at fresh
  have moved := moveTo_same state caller (afterDispatch (calls.delivery caller))
  have once : state.dispatched ++ [caller] =
      if (calls.delivery caller).usesSync then [caller] else [] := by
    rw [dispatched, usesSync]
    rfl
  cases delivery : (calls.delivery caller).usesAsync with
  | true =>
      have next : _ = Phase.enqueuing := moved.trans (by simp [afterDispatch, delivery])
      exact .enqueuing next delivery fresh once added
  | false =>
      have next : _ = Phase.returned := moved.trans (by simp [afterDispatch, delivery])
      exact .returned next once (added.trans (by simp [delivery]))

theorem led_afterEnqueue {state : Publishing ι} {caller : ι} (led : Led calls caller state)
    (phase : state.phase caller = .enqueuing) (runtime : Runtime) :
    Led calls caller { state.moveTo caller .returned with
      runtime
      added := if jobIdOf (calls.envelope caller) ∈ ids state.runtime.queue then state.added
        else state.added ++ [caller] } := by
  obtain ⟨usesAsync, fresh, dispatched, added⟩ := led.atEnqueuing phase
  refine .returned (moveTo_same state caller .returned) dispatched ?_
  rw [jobIdOf_repeated, if_neg fresh, added, usesAsync]
  rfl

theorem oneLeader_proceed {state next : Publishing ι} (invariant : OneLeader calls state)
    {caller : ι} (taken : proceed calls state caller = some next) : OneLeader calls next := by
  unfold proceed at taken
  split at taken
  · rename_i phase
    obtain ⟨marked, led, others⟩ := invariant.led caller (by simp [phase])
    obtain rfl := Option.some.inj taken
    exact oneLeader_moved marked others (led_afterPersist led phase _ rfl)
  · rename_i phase
    obtain ⟨marked, led, others⟩ := invariant.led caller (by simp [phase])
    obtain rfl := Option.some.inj taken
    exact oneLeader_moved marked others (led_afterDispatch led phase _ rfl)
  · rename_i phase
    obtain ⟨marked, led, others⟩ := invariant.led caller (by simp [phase])
    obtain rfl := Option.some.inj taken
    exact oneLeader_moved marked others (led_afterEnqueue led phase _)
  · exact absurd taken (by simp)

theorem led_failed {state : Publishing ι} {caller : ι} (dispatched : state.dispatched.length ≤ 1)
    (added : state.added = []) (runtime : Runtime) :
    Led calls caller { state.moveTo caller .failed with runtime } :=
  .failed (moveTo_same state caller .failed) dispatched added

theorem oneLeader_fail {state next : Publishing ι} (invariant : OneLeader calls state)
    {caller : ι} {handled : Nat} (taken : fail calls state caller handled = some next) :
    OneLeader calls next := by
  unfold fail at taken
  split at taken
  · rename_i phase
    obtain ⟨marked, led, others⟩ := invariant.led caller (by simp [phase])
    obtain ⟨_, _, dispatched, added⟩ := led.atPersisting phase
    obtain rfl := Option.some.inj taken
    exact oneLeader_moved marked others (led_failed (by simp [dispatched]) added _)
  · rename_i phase
    obtain ⟨marked, led, others⟩ := invariant.led caller (by simp [phase])
    obtain ⟨_, _, dispatched, added⟩ := led.atEnqueuing phase
    obtain rfl := Option.some.inj taken
    refine oneLeader_moved marked others (led_failed ?_ added _)
    rw [dispatched]
    split <;> simp
  · rename_i phase
    obtain ⟨marked, led, others⟩ := invariant.led caller (by simp [phase])
    obtain ⟨_, _, dispatched, added⟩ := led.atDispatching phase
    obtain rfl := Option.some.inj taken
    exact oneLeader_moved marked others (led_failed (by simp [dispatched]) added _)
  · exact absurd taken (by simp)

theorem oneLeader_step {state next : Publishing ι} {action : PublishAction ι}
    (invariant : OneLeader calls state) (unraced : Unraced calls state action)
    (taken : publishStep calls state action = some next) : OneLeader calls next := by
  cases action with
  | check caller =>
      obtain ⟨idle, isNext⟩ := Option.ite_none_right_eq_some.mp taken
      obtain rfl := Option.some.inj isNext
      exact oneLeader_check invariant idle unraced
  | mark caller =>
      obtain ⟨unseen, isNext⟩ := Option.ite_none_right_eq_some.mp taken
      obtain rfl := Option.some.inj isNext
      exact oneLeader_mark invariant unraced
  | proceed caller => exact oneLeader_proceed invariant taken
  | fail caller handled => exact oneLeader_fail invariant taken
  | other envelope delivery =>
      obtain ⟨unrelated, isNext⟩ := Option.ite_none_left_eq_some.mp taken
      obtain rfl := Option.some.inj isNext
      obtain ⟨notKey, notJob⟩ := not_or.mp unrelated
      apply invariant.environment
      · rw [mem_seen_publish, or_iff_left notKey]
      · intro member
        exact (mem_ids_publish member).resolve_right fun same => notJob same.symm
  | work jobId =>
      obtain rfl := Option.some.inj taken
      exact invariant.environment (by rw [seen_work]) mem_ids_work

/-- While no call overtakes another between its check and its mark and none finds the key of a
call that has not returned, each dispatcher is given the event once. -/
theorem exactlyOnce_always (registries : Registries) {actions : List (PublishAction ι)}
    (guarded : Guarded (publishStep calls) (Unraced calls) (.start ι registries) actions) :
    Always (publishStep calls) (ExactlyOnce calls) (.start ι registries) actions := by
  have initial : OneLeader calls (.start ι registries) :=
    .unmarked (by simp [Publishing.start, Runtime.start])
      (by simp [Publishing.start, Runtime.start, ids]) (fun _ => Or.inl rfl) rfl rfl
  refine (always_of_guarded (publishStep calls) ?_ initial guarded).mono _ fun _ => ?_
  · exact fun state action next invariant unraced taken => oneLeader_step invariant unraced taken
  · exact OneLeader.exactlyOnce

variable (calls)

def uninterrupted (state : Publishing ι) (caller : ι) : List (PublishAction ι) :=
  let delivery := calls.delivery caller
  let stages := (if delivery.usesAsync then 2 else 0) + if delivery.usesSync then 1 else 0
  .check caller :: if isDuplicate state.runtime calls.key then []
    else .mark caller :: List.replicate stages (.proceed caller)

/-- Taken one after the other, the steps of a call are `publish`. -/
theorem uninterrupted_publish (state : Publishing ι) (caller : ι)
    (idle : state.phase caller = .idle) :
    ∃ final, run (publishStep calls) state (uninterrupted calls state caller) = some final ∧
      final.phase caller = .returned ∧
      final.runtime = publish state.runtime (calls.envelope caller) (calls.delivery caller) := by
  unfold uninterrupted
  cases seen : isDuplicate state.runtime calls.key with
  | true =>
      refine ⟨state.moveTo caller .returned, ?_, moveTo_same state caller _, ?_⟩
      · simp [run, publishStep, idle, seen]
      · simp [publish, guardKey_repeated, seen, Publishing.moveTo]
  | false =>
      cases delivery : calls.delivery caller <;>
        simp [run, publishStep, proceed, idle, seen, publish, guardKey_repeated, deliver,
          Publishing.moveTo, delivery, DeliveryPolicy.usesAsync, DeliveryPolicy.usesSync,
          afterMark, afterPersist, afterDispatch, List.replicate]

end

def deletions : Repeated (Fin 2) where
  name := js "discord.message.deleted"
  key := js "m1"
  delivery _ := .async
  envelope caller := buildEnvelope (if caller = 0 then js "e1" else js "e2") 0
    { correlationId := js "c1", causationId := none } (js "discord.message.deleted") .null
    { PublishOptions.empty with idempotencyKey := some (js "m1") }
  idempotent := by decide +kernel
  keyGiven := by decide +kernel
  named _ := rfl
  keyed _ := rfl

theorem secondDeletion_dropped :
    Always (publishStep deletions) (ExactlyOnce deletions) (.start (Fin 2) .empty)
      [.check 0, .mark 0, .proceed 0, .proceed 0, .check 1] :=
  exactlyOnce_always .empty (by decide +kernel)

/-- The log refuses the event of the first call; its key stays marked and the retry is dropped. -/
theorem retriedDeletion_lost :
    ¬ Always (publishStep deletions) (ExactlyOnce deletions) (.start (Fin 2) .empty)
      [.check 0, .mark 0, .fail 0 0, .check 1] := by
  refine not_always _ (fun state => decide (state.phase 1 = .returned → state.added.length = 1)) ?_
    (by decide +kernel)
  intro state once
  refine decide_eq_true fun returned => ?_
  obtain ⟨accepted, _, added⟩ := once.2.2 1 returned
  rw [added rfl]
  rfl

end Events
