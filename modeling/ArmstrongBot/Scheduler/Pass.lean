import ArmstrongBot.Scheduler.Reconciler
import Mathlib.Logic.Relation

/-! `reconcile` from await to await, as far as anything lets it. -/

namespace Scheduler

open JsText
open Calendar (Timestamp)

/-- A pass, by what it does next. -/
inductive Pass
  | reading
  | listing (active : List ScheduleEntity)
  | visiting (active : List ScheduleEntity) (byScheduleId : JsMap JsString RepeatableSummary)
  | enqueueing (schedule : ScheduleEntity) (active : List ScheduleEntity)
      (byScheduleId : JsMap JsString RepeatableSummary)
  | recording (schedule : ScheduleEntity) (key : JsString) (active : List ScheduleEntity)
      (byScheduleId : JsMap JsString RepeatableSummary)
  | removing (orphans : List RepeatableSummary)
  | finished
  | failed

/-- The removals are caught. -/
def Pass.canFail : Pass → Bool
  | .visiting _ _ | .removing _ => false
  | _ => true

section

variable (services : Services) (listing : Listing)

def removal (queue : Queue) (key : JsString) (input : Input) : Queue :=
  if input.removes then queue.removeRepeatable key else queue

def advancePass (state : State) (pass : Pass) (input : Input) : Option (State × Pass) :=
  match pass with
  | .finished | .failed => none
  | pass =>
      if input.fails && pass.canFail then some (state, .failed)
      else
        match pass with
        | .reading => some (state, .listing (dbActive state.schedules))
        | .listing active => some (state, .visiting active (byScheduleId listing state.queue))
        | .visiting [] byScheduleId => some (state, .removing byScheduleId.values)
        | .visiting (schedule :: active) byScheduleId =>
            match byScheduleId.get schedule.id with
            | none => some (state, .enqueueing schedule active byScheduleId)
            | some existing =>
                let rest := byScheduleId.delete schedule.id
                if hasDrifted schedule.cron schedule.timezone existing then
                  some ({ state with queue := removal state.queue existing.key input },
                    .enqueueing schedule active rest)
                else some (state, .visiting active rest)
        | .enqueueing schedule active byScheduleId =>
            let repeatable := repeatableOf services schedule input.now
            some ({ state with queue := state.queue.addRecurring repeatable },
              .recording schedule repeatable.key active byScheduleId)
        | .recording schedule key active byScheduleId =>
            if services.columnsHold (schedule.withJob key) then
              some ({ state with schedules := state.schedules.setBullJobId schedule.id key },
                .visiting active byScheduleId)
            else some (state, .failed)
        | .removing [] => some (state, .finished)
        | .removing (orphan :: orphans) =>
            some ({ state with queue := removal state.queue orphan.key input }, .removing orphans)
        | _ => none

/-- The steps to which nothing fails, all at one time. -/
def Undisturbed (now : Timestamp) (before after : State × Pass) : Prop :=
  ∃ id, advancePass services listing before.1 before.2 { id, now, fails := false, removes := true } =
    some after

end

section

variable {services : Services} {listing : Listing} {now : Timestamp}

open Relation (ReflTransGen)

theorem undisturbed {before : State × Pass} {after : State × Pass}
    (taken : advancePass services listing before.1 before.2
      { id := [], now, fails := false, removes := true } = some after) :
    ReflTransGen (Undisturbed services listing now) before after := .single ⟨[], taken⟩

/-- The steps in which a schedule is put back. -/
theorem rehydrate_steps {state next : State} {schedule : ScheduleEntity}
    (done : rehydrate services now state schedule = some next) (active : List ScheduleEntity)
    (map : JsMap JsString RepeatableSummary) :
    ReflTransGen (Undisturbed services listing now) (state, .enqueueing schedule active map)
      (next, .visiting active map) := by
  obtain ⟨holds, isNext⟩ := Option.ite_none_right_eq_some.mp done
  obtain rfl := Option.some.inj isNext
  refine .trans (undisturbed rfl) (undisturbed ?_)
  simp only [advancePass, holds, Bool.false_and, Bool.false_eq_true, if_false, if_true]

theorem visit_steps {progress next : State × JsMap JsString RepeatableSummary}
    {schedule : ScheduleEntity} (done : visit services now progress schedule = some next)
    (active : List ScheduleEntity) :
    ReflTransGen (Undisturbed services listing now)
      (progress.1, .visiting (schedule :: active) progress.2) (next.1, .visiting active next.2) := by
  unfold visit at done
  cases found : progress.2.get schedule.id with
  | none =>
      simp only [found] at done
      obtain ⟨state, isState, rfl⟩ := Option.map_eq_some_iff.mp done
      refine .trans (undisturbed ?_) (rehydrate_steps isState active progress.2)
      simp only [advancePass, found, Bool.false_and, Bool.false_eq_true, if_false]
  | some existing =>
      simp only [found] at done
      split at done
      · rename_i drifted
        obtain ⟨state, isState, rfl⟩ := Option.map_eq_some_iff.mp done
        refine .trans (undisturbed ?_)
          (rehydrate_steps isState active (progress.2.delete schedule.id))
        simp only [advancePass, found, drifted, removal, Bool.false_and, Bool.false_eq_true, if_false,
          if_true]
      · rename_i matching
        cases done
        refine undisturbed ?_
        simp only [advancePass, found, matching, Bool.false_and, Bool.false_eq_true, if_false]

theorem visits_steps {active : List ScheduleEntity}
    {progress next : State × JsMap JsString RepeatableSummary}
    (done : active.foldlM (visit services now) progress = some next) :
    ReflTransGen (Undisturbed services listing now) (progress.1, .visiting active progress.2)
      (next.1, .visiting [] next.2) := by
  induction active generalizing progress with
  | nil =>
      cases done
      exact .refl
  | cons schedule active ih =>
      rw [List.foldlM_cons] at done
      obtain ⟨middle, visited, later⟩ := Option.bind_eq_some_iff.mp done
      exact (visit_steps visited active).trans (ih later)

theorem removals_steps (state : State) (orphans : List RepeatableSummary) :
    ReflTransGen (Undisturbed services listing now) (state, .removing orphans)
      ({ state with queue := removeOrphans state.queue orphans }, .finished) := by
  induction orphans generalizing state with
  | nil => exact undisturbed rfl
  | cons orphan orphans ih =>
      exact .trans (undisturbed rfl)
        (ih { state with queue := state.queue.removeRepeatable orphan.key })

/-- A pass that nothing disturbs comes to its end, with what `reconcile` says. -/
theorem reconcile_steps {state next : State}
    (done : reconcile services now listing state = some next) :
    ReflTransGen (Undisturbed services listing now) (state, .reading) (next, .finished) := by
  obtain ⟨progress, visited, rfl⟩ := Option.map_eq_some_iff.mp done
  have started : ReflTransGen (Undisturbed services listing now) (state, .reading)
      (state, .visiting (dbActive state.schedules) (byScheduleId listing state.queue)) :=
    .trans (undisturbed rfl) (undisturbed rfl)
  have removing : ReflTransGen (Undisturbed services listing now)
      (progress.1, .visiting [] progress.2) (progress.1, .removing progress.2.values) :=
    undisturbed rfl
  exact started.trans ((visits_steps visited).trans (removing.trans (removals_steps _ _)))

end

/-! What a step of a pass does. -/

inductive PassEffect (services : Services) (listing : Listing) (state : State) (input : Input) :
    Pass → State → Pass → Prop
  | failed {pass : Pass} : PassEffect services listing state input pass state .failed
  | read : PassEffect services listing state input .reading state
      (.listing (dbActive state.schedules))
  | listed {active : List ScheduleEntity} :
      PassEffect services listing state input (.listing active) state
        (.visiting active (byScheduleId listing state.queue))
  | visitedAll {map : JsMap JsString RepeatableSummary} :
      PassEffect services listing state input (.visiting [] map) state (.removing map.values)
  | missed {schedule : ScheduleEntity} {active : List ScheduleEntity}
      {map : JsMap JsString RepeatableSummary} : map.get schedule.id = none →
      PassEffect services listing state input (.visiting (schedule :: active) map) state
        (.enqueueing schedule active map)
  | drifted {schedule : ScheduleEntity} {active : List ScheduleEntity}
      {map : JsMap JsString RepeatableSummary} {existing : RepeatableSummary} :
      map.get schedule.id = some existing →
      hasDrifted schedule.cron schedule.timezone existing = true →
      PassEffect services listing state input (.visiting (schedule :: active) map)
        { state with queue := removal state.queue existing.key input }
        (.enqueueing schedule active (map.delete schedule.id))
  | matched {schedule : ScheduleEntity} {active : List ScheduleEntity}
      {map : JsMap JsString RepeatableSummary} {existing : RepeatableSummary} :
      map.get schedule.id = some existing →
      hasDrifted schedule.cron schedule.timezone existing = false →
      PassEffect services listing state input (.visiting (schedule :: active) map) state
        (.visiting active (map.delete schedule.id))
  | enqueued {schedule : ScheduleEntity} {active : List ScheduleEntity}
      {map : JsMap JsString RepeatableSummary} :
      PassEffect services listing state input (.enqueueing schedule active map)
        { state with queue := state.queue.addRecurring (repeatableOf services schedule input.now) }
        (.recording schedule (repeatableOf services schedule input.now).key active map)
  | recorded {schedule : ScheduleEntity} {key : JsString} {active : List ScheduleEntity}
      {map : JsMap JsString RepeatableSummary} :
      PassEffect services listing state input (.recording schedule key active map)
        { state with schedules := state.schedules.setBullJobId schedule.id key }
        (.visiting active map)
  | removed {orphan : RepeatableSummary} {orphans : List RepeatableSummary} :
      PassEffect services listing state input (.removing (orphan :: orphans))
        { state with queue := removal state.queue orphan.key input } (.removing orphans)
  | finished : PassEffect services listing state input (.removing []) state .finished

theorem advancePass_effect {services : Services} {listing : Listing} {state next : State}
    {pass later : Pass} {input : Input}
    (taken : advancePass services listing state pass input = some (next, later)) :
    PassEffect services listing state input pass next later := by
  cases fails : input.fails && pass.canFail with
  | true =>
      cases pass <;> simp only [advancePass, fails, if_true, reduceCtorEq] at taken <;>
        cases taken <;> exact .failed
  | false =>
      cases pass <;>
        simp only [advancePass, fails, Bool.false_eq_true, if_false, reduceCtorEq] at taken
      case reading =>
          cases taken
          exact .read
      case listing active =>
          cases taken
          exact .listed
      case visiting active map =>
          cases active with
          | nil =>
              cases taken
              exact .visitedAll
          | cons schedule active =>
              cases found : map.get schedule.id with
              | none =>
                  simp only [found] at taken
                  cases taken
                  exact .missed found
              | some existing =>
                  simp only [found] at taken
                  split at taken <;> cases taken
                  · rename_i drifted
                    exact .drifted found drifted
                  · rename_i matching
                    exact .matched found (Bool.eq_false_iff.mpr matching)
      case enqueueing schedule active map =>
          cases taken
          exact .enqueued
      case recording schedule key active map =>
          split at taken <;> cases taken
          · exact .recorded
          · exact .failed
      case removing orphans =>
          cases orphans with
          | nil =>
              cases taken
              exact .finished
          | cons orphan orphans =>
              cases taken
              exact .removed

end Scheduler
