import ArmstrongBot.Library.StepMachine
import ArmstrongBot.Scheduler.Pass

/-! What runs and passes leave of a recurring schedule that nobody pauses or cancels. -/

namespace Scheduler

open JsText StepMachine
open Calendar (Timestamp)

/-- The table and the queue under the pass of the heartbeat, of which there is one at a time. -/
structure Heartbeat where
  state : State
  pass : Option Pass

def Pass.isOver : Pass → Bool
  | .finished | .failed => true
  | _ => false

abbrev FaithfulListing (bull : BullMQ) := { listing : Listing // Reports bull listing }

inductive Beat (bull : BullMQ)
  | runJob (jobId : JsString) (succeeds : Bool) (now : Timestamp)
  | runRepeatable (repeatKey : JsString) (succeeds willRetry : Bool) (now : Timestamp)
  | startPass
  | advancePass (listing : FaithfulListing bull) (input : Input)
  | restart

section

variable (services : Services)

def Heartbeat.step (heartbeat : Heartbeat) : Beat services.bull → Option Heartbeat
  | .runJob jobId succeeds now =>
      some { heartbeat with state := runJob heartbeat.state jobId succeeds now }
  | .runRepeatable repeatKey succeeds willRetry now =>
      some { heartbeat with state := runRepeatable heartbeat.state repeatKey succeeds willRetry now }
  | .startPass =>
      if heartbeat.pass.all Pass.isOver then some { heartbeat with pass := some .reading } else none
  | .advancePass listing input =>
      match heartbeat.pass with
      | none => none
      | some pass =>
          (advancePass services listing.1 heartbeat.state pass input).map fun next =>
            { state := next.1, pass := some next.2 }
  | .restart => some { heartbeat with pass := none }

/-- The schedule is selected by `findActiveRecurring`, and its repeatable is registered. -/
def Kept (id : JsString) (repeatable : Repeatable) (heartbeat : Heartbeat) : Prop :=
  (∃ row ∈ heartbeat.state.schedules.findActiveRecurring, row.id = id) ∧
    repeatable ∈ heartbeat.state.queue.repeatables

/-- The schedule of which a run fails with its retries used up. -/
def exhausted (state : State) : Beat services.bull → Option JsString
  | .runJob jobId succeeds _ =>
      (JobQueue.withStatus state.queue.jobs jobId .waiting).bind fun job =>
        if succeeds || decide (job.attemptsMade + 1 < job.data.policy.attempts.toNat) then none
        else some job.data.data.scheduleId
  | .runRepeatable repeatKey succeeds willRetry _ =>
      if succeeds || willRetry then none
      else
        (state.queue.repeatables.find? fun repeatable => repeatable.key = repeatKey).map
          fun repeatable => repeatable.data.scheduleId
  | _ => none

structure ScheduleEntity.Ticks (id : JsString) (repeatable : Repeatable) (row : ScheduleEntity) :
    Prop where
  id : row.id = id
  type : row.type = .recurring
  isLive : row.isLive = true
  status : row.status = .active
  current : Current row repeatable

/-- A schedule as it is once it has been scheduled: its row is active, and it has one repeatable,
with what the row says. -/
structure Established (id : JsString) (repeatable : Repeatable) (state : State) : Prop where
  row : ∃ row ∈ state.schedules.rows, row.Ticks id repeatable
  registered : Registered services.bull state.queue
  sole : repeatablesOf state.queue.repeatables id = [repeatable]

end

section Steps

variable {services : Services} {id : JsString} {repeatable : Repeatable}

/-! Runs. -/

theorem ticks_update {schedules : Schedules} {other : JsString}
    {change : ScheduleEntity → ScheduleEntity}
    (same : ∀ row, (change row).id = row.id ∧ (change row).dedup = row.dedup)
    (ticks : ∃ row ∈ schedules.rows, row.Ticks id repeatable)
    (keeps : other = id → ∀ row : ScheduleEntity, row.Ticks id repeatable →
      (change row).Ticks id repeatable) :
    ∃ row ∈ (schedules.update other change same).rows, row.Ticks id repeatable := by
  obtain ⟨row, member, isTicking⟩ := ticks
  refine ⟨_, List.mem_map_of_mem member, ?_⟩
  split
  · rename_i sameId
    exact keeps (sameId.symm.trans isTicking.id) row isTicking
  · exact isTicking

theorem ticks_completed {row : ScheduleEntity} (ticks : row.Ticks id repeatable)
    (now : Timestamp) : (row.completed now).Ticks id repeatable where
  id := ticks.id
  type := ticks.type
  isLive := ticks.isLive
  status := by
    have recurring : ¬ (row.isLive = true ∧ row.type = .once) := by
      rw [ticks.type]
      simp
    rw [ScheduleEntity.completed, if_neg recurring]
    exact ticks.status
  current := ticks.current

inductive Recorded (schedules : Schedules) : Option JsString → Schedules → Prop
  | unchanged : Recorded schedules none schedules
  | completed (other : JsString) (now : Timestamp) :
      Recorded schedules none (schedules.update other (.completed now) fun _ => ⟨rfl, rfl⟩)
  | failed (other : JsString) :
      Recorded schedules (some other) (schedules.update other .failed fun _ => ⟨rfl, rfl⟩)

theorem recorded_attempt (schedules : Schedules) (scheduleId : JsString) (succeeds willRetry : Bool)
    (now : Timestamp) :
    Recorded schedules (if succeeds || willRetry then none else some scheduleId)
      (recordAttempt schedules scheduleId succeeds willRetry now) := by
  cases succeeds with
  | true => exact .completed scheduleId now
  | false =>
      cases willRetry with
      | true => exact .unchanged
      | false => exact .failed scheduleId

theorem ticks_recorded {schedules next : Schedules} {failing : Option JsString}
    (ticks : ∃ row ∈ schedules.rows, row.Ticks id repeatable)
    (recorded : Recorded schedules failing next) (lasts : failing ≠ some id) :
    ∃ row ∈ next.rows, row.Ticks id repeatable := by
  cases recorded with
  | unchanged => exact ticks
  | completed other now => exact ticks_update _ ticks fun _ _ ticks => ticks_completed ticks now
  | failed other => exact ticks_update _ ticks fun same => absurd (congrArg some same) lasts

theorem status_recorded {schedules next : Schedules}
    (recorded : Recorded schedules (some id) next) {row : ScheduleEntity} (member : row ∈ next.rows)
    (isId : row.id = id) : row.status = .failed := by
  cases recorded with
  | failed =>
      obtain ⟨before, _, rfl⟩ := List.mem_map.mp member
      split
      · rfl
      · rename_i other
        rw [if_neg other] at isId
        exact absurd isId other

/-- What a step does: a run changes a row, and leaves the repeatables and the pass alone. -/
inductive BeatEffect (services : Services) (heartbeat : Heartbeat) :
    Beat services.bull → Heartbeat → Prop
  | ran {beat : Beat services.bull} {state : State} :
      state.queue.repeatables = heartbeat.state.queue.repeatables →
      Recorded heartbeat.state.schedules (exhausted services heartbeat.state beat) state.schedules →
      BeatEffect services heartbeat beat { heartbeat with state }
  | started : BeatEffect services heartbeat .startPass { heartbeat with pass := some .reading }
  | advanced {listing : FaithfulListing services.bull} {input : Input} {pass later : Pass}
      {state : State} : heartbeat.pass = some pass →
      PassEffect services listing.1 heartbeat.state input pass state later →
      BeatEffect services heartbeat (.advancePass listing input) { state, pass := some later }
  | restarted : BeatEffect services heartbeat .restart { heartbeat with pass := none }

theorem beat_effect {heartbeat next : Heartbeat} {beat : Beat services.bull}
    (taken : heartbeat.step services beat = some next) :
    BeatEffect services heartbeat beat next := by
  cases beat with
  | runJob jobId succeeds now =>
      cases taken
      unfold runJob
      split
      · rename_i missing
        refine .ran rfl ?_
        rw [exhausted, missing]
        exact .unchanged
      · rename_i job found
        refine .ran rfl ?_
        rw [exhausted, found]
        exact recorded_attempt _ _ _ _ _
  | runRepeatable repeatKey succeeds willRetry now =>
      cases taken
      unfold runRepeatable
      split
      · rename_i missing
        refine .ran rfl ?_
        rw [exhausted, missing, Option.map_none, ite_self]
        exact .unchanged
      · rename_i found isFound
        refine .ran rfl ?_
        rw [exhausted, isFound]
        exact recorded_attempt _ _ _ _ _
  | startPass =>
      obtain rfl := Option.some.inj (Option.ite_none_right_eq_some.mp taken).2
      exact .started
  | advancePass listing input =>
      simp only [Heartbeat.step] at taken
      split at taken
      · cases taken
      · rename_i pass isPass
        obtain ⟨advanced, isNext, rfl⟩ := Option.map_eq_some_iff.mp taken
        exact .advanced isPass (advancePass_effect isNext)
  | restart =>
      cases taken
      exact .restarted

/-! Passes. -/

/-- The map has the schedule for its row that is yet to be visited, or no longer has it. -/
structure Spared (bull : BullMQ) (id : JsString) (active : List ScheduleEntity)
    (map : JsMap JsString RepeatableSummary) : Prop where
  distinct : (active.map ScheduleEntity.id).Nodup
  indexed : Indexed bull map
  own : (id ∉ active.map ScheduleEntity.id ∧ map.get id = none) ∨
    ∃ existing, map.get id = some existing ∧ (∃ row ∈ active, row.id = id) ∧
      ∀ row ∈ active, row.id = id → hasDrifted row.cron row.timezone existing = false

/-- A pass that leaves the schedule as it is. -/
def Spares (bull : BullMQ) (id : JsString) (repeatable : Repeatable) : Pass → Prop
  | .reading | .finished | .failed => True
  | .listing active => (active.map ScheduleEntity.id).Nodup ∧ (∃ row ∈ active, row.id = id) ∧
      ∀ row ∈ active, row.id = id → Current row repeatable
  | .visiting active map => Spared bull id active map
  | .enqueueing schedule active map | .recording schedule _ active map =>
      schedule.id ≠ id ∧ Spared bull id active map
  | .removing orphans => ∀ orphan ∈ orphans, orphan.key ≠ repeatable.key

structure Unbroken (services : Services) (id : JsString) (repeatable : Repeatable)
    (heartbeat : Heartbeat) : Prop where
  established : Established services id repeatable heartbeat.state
  spares : ∀ pass ∈ heartbeat.pass, Spares services.bull id repeatable pass

theorem Established.owned {state : State} (established : Established services id repeatable state) :
    repeatable ∈ state.queue.repeatables ∧ repeatable.data.scheduleId = id :=
  mem_repeatablesOf.mp (established.sole ▸ List.mem_singleton_self repeatable)

theorem Established.key {state : State} (established : Established services id repeatable state) :
    repeatable.key = services.bull.repeatKey repeatable.name id repeatable.repeats := by
  obtain ⟨member, isId⟩ := established.owned
  rw [← isId]
  exact established.registered.keyed repeatable member

theorem Established.kept {heartbeat : Heartbeat}
    (established : Established services id repeatable heartbeat.state) :
    Kept id repeatable heartbeat := by
  obtain ⟨row, member, ticks⟩ := established.row
  refine ⟨⟨row, List.mem_filter.mpr ⟨member, decide_eq_true ?_⟩, ticks.id⟩, established.owned.1⟩
  exact ⟨ticks.type, ticks.isLive, by rw [ticks.status]; rfl⟩

theorem Established.run {state next : State} (established : Established services id repeatable state)
    (sameRepeatables : next.queue.repeatables = state.queue.repeatables) {failing : Option JsString}
    (recorded : Recorded state.schedules failing next.schedules) (lasts : failing ≠ some id) :
    Established services id repeatable next where
  row := ticks_recorded established.row recorded lasts
  registered := ⟨by rw [sameRepeatables]; exact established.registered.distinct,
    by rw [sameRepeatables]; exact established.registered.keyed⟩
  sole := by rw [sameRepeatables]; exact established.sole

/-- A step on another schedule's key and row leaves the schedule as it is. -/
theorem Established.removal {state : State} (established : Established services id repeatable state)
    {key : JsString} (other : key ≠ repeatable.key) (input : Input) :
    Established services id repeatable
      { state with queue := removal state.queue key input } where
  row := established.row
  registered := by
    unfold Scheduler.removal
    split
    · exact established.registered.removeRepeatable key
    · exact established.registered
  sole := by
    unfold Scheduler.removal
    split
    · rw [repeatablesOf_removeRepeatable, established.sole, List.filter_cons_of_pos]
      · rfl
      · exact decide_eq_true (Ne.symm other)
    · exact established.sole

theorem Established.addRecurring {state : State} {listing : Listing}
    (established : Established services id repeatable state)
    (reports : Reports services.bull listing) {schedule : ScheduleEntity}
    (other : schedule.id ≠ id) (now : Timestamp) :
    Established services id repeatable
      { state with queue := state.queue.addRecurring (repeatableOf services schedule now) } where
  row := established.row
  registered := established.registered.addRecurring rfl
  sole := by
    rw [repeatablesOf_addRecurring_other established.registered reports rfl (Ne.symm other)]
    exact established.sole

theorem Established.setBullJobId {state : State}
    (established : Established services id repeatable state) (other bullJobId : JsString) :
    Established services id repeatable
      { state with schedules := state.schedules.setBullJobId other bullJobId } where
  row := by
    have same : ∀ row : ScheduleEntity, (row.withJob bullJobId).id = row.id ∧
        (row.withJob bullJobId).dedup = row.dedup := fun _ => ⟨rfl, rfl⟩
    exact ticks_update same established.row fun _ _ ticks =>
      ⟨ticks.id, ticks.type, ticks.isLive, ticks.status, ticks.current⟩
  registered := established.registered
  sole := established.sole

theorem key_ne_of_id {state : State} {listing : Listing} {other name : JsString}
    {repeats : RepeatOptions} (established : Established services id repeatable state)
    (reports : Reports services.bull listing) (apart : other ≠ id) :
    services.bull.repeatKey name other repeats ≠ repeatable.key := by
  rw [established.key]
  exact fun same => apart (reports.separates _ _ _ _ _ _ same)

theorem spares_read {state : State} (established : Established services id repeatable state) :
    Spares services.bull id repeatable (.listing (dbActive state.schedules)) := by
  obtain ⟨row, member, ticks⟩ := established.row
  refine ⟨dbActive_ids_nodup _,
    ⟨row, mem_dbActive.mpr ⟨member, ticks.type, ticks.isLive, ticks.status⟩, ticks.id⟩, ?_⟩
  intro other isActive sameId
  obtain rfl := Schedules.eq_of_id (mem_dbActive.mp isActive).1 member (sameId.trans ticks.id.symm)
  exact ticks.current

theorem spares_listed {state : State} {listing : Listing} {active : List ScheduleEntity}
    (established : Established services id repeatable state)
    (reports : Reports services.bull listing)
    (spares : Spares services.bull id repeatable (.listing active)) :
    Spares services.bull id repeatable (.visiting active (byScheduleId listing state.queue)) where
  distinct := spares.1
  indexed := indexed_byScheduleId reports established.registered
  own := by
    have listed := listed_perm reports state.queue id
    rw [established.sole, List.perm_singleton] at listed
    refine .inr ⟨summaryOf listing repeatable, ?_, spares.2.1, fun row member sameId => ?_⟩
    · rw [get_byScheduleId reports, listed]
      rfl
    · refine Bool.eq_false_iff.mpr fun drifted => ?_
      exact ((hasDrifted_iff listing row repeatable).mp drifted).1 (spares.2.2 row member sameId)

/-- What is left to visit after a row of another schedule, or after the row of this one. -/
theorem Spared.next {bull : BullMQ} {schedule : ScheduleEntity} {active : List ScheduleEntity}
    {map rest : JsMap JsString RepeatableSummary} (spared : Spared bull id (schedule :: active) map)
    (entries : ∀ entry, entry ∈ rest.entries ↔ entry ∈ map.entries ∧ entry.1 ≠ schedule.id) :
    Spared bull id active rest where
  distinct := (List.nodup_cons.mp spared.distinct).2
  indexed := spared.indexed.step fun entry member => ((entries entry).mp member).1
  own := by
    by_cases isOwn : schedule.id = id
    · refine .inl ⟨isOwn ▸ (List.nodup_cons.mp spared.distinct).1, ?_⟩
      exact JsMap.get_eq_none.mpr fun entry member => isOwn ▸ ((entries entry).mp member).2
    · have sameGet : rest.get id = map.get id :=
        get_of_entries fun summary => by simp [entries, Ne.symm isOwn]
      rw [sameGet]
      rcases spared.own with ⟨absent, isNone⟩ | ⟨existing, found, ⟨row, member, isId⟩, matching⟩
      · exact .inl ⟨fun inRest => absent (List.mem_cons_of_mem _ inRest), isNone⟩
      · refine .inr ⟨existing, found, ⟨row, ?_, isId⟩, fun row inRest => ?_⟩
        · refine (List.mem_cons.mp member).resolve_left ?_
          rintro rfl
          exact isOwn isId
        · exact matching row (List.mem_cons_of_mem _ inRest)

theorem Spared.delete {bull : BullMQ} {schedule : ScheduleEntity} {active : List ScheduleEntity}
    {map : JsMap JsString RepeatableSummary} (spared : Spared bull id (schedule :: active) map) :
    Spared bull id active (map.delete schedule.id) :=
  spared.next fun _ => JsMap.mem_delete

theorem Spared.missed {bull : BullMQ} {schedule : ScheduleEntity} {active : List ScheduleEntity}
    {map : JsMap JsString RepeatableSummary} (spared : Spared bull id (schedule :: active) map)
    (missed : map.get schedule.id = none) : Spared bull id active map :=
  spared.next fun entry =>
    ⟨fun member => ⟨member, JsMap.get_eq_none.mp missed entry member⟩, And.left⟩

theorem Spared.other_of_missed {bull : BullMQ} {schedule : ScheduleEntity}
    {active : List ScheduleEntity} {map : JsMap JsString RepeatableSummary}
    (spared : Spared bull id (schedule :: active) map) (missed : map.get schedule.id = none) :
    schedule.id ≠ id := by
  rintro rfl
  rcases spared.own with ⟨absent, _⟩ | ⟨existing, found, _⟩
  · exact absent List.mem_cons_self
  · rw [found] at missed
    cases missed

theorem Spared.other_of_drifted {bull : BullMQ} {schedule : ScheduleEntity}
    {active : List ScheduleEntity} {map : JsMap JsString RepeatableSummary}
    {existing : RepeatableSummary} (spared : Spared bull id (schedule :: active) map)
    (found : map.get schedule.id = some existing)
    (drifted : hasDrifted schedule.cron schedule.timezone existing = true) : schedule.id ≠ id := by
  rintro rfl
  rcases spared.own with ⟨absent, _⟩ | ⟨known, isKnown, _, matching⟩
  · exact absent List.mem_cons_self
  · obtain rfl := Option.some.inj (found.symm.trans isKnown)
    rw [matching schedule List.mem_cons_self rfl] at drifted
    cases drifted

theorem Unbroken.advance {heartbeat : Heartbeat} {listing : Listing} {pass later : Pass}
    {state : State} {input : Input} (unbroken : Unbroken services id repeatable heartbeat)
    (reports : Reports services.bull listing) (isPass : heartbeat.pass = some pass)
    (effect : PassEffect services listing heartbeat.state input pass state later) :
    Unbroken services id repeatable { state, pass := some later } := by
  have established := unbroken.established
  have spares := unbroken.spares pass isPass
  have keeps : ∀ next, Established services id repeatable next → ∀ pass,
      Spares services.bull id repeatable pass →
      Unbroken services id repeatable { state := next, pass := some pass } :=
    fun next established pass spares =>
      ⟨established, fun other isOther => Option.some.inj isOther ▸ spares⟩
  cases effect with
  | failed => exact keeps _ established _ trivial
  | read => exact keeps _ established _ (spares_read established)
  | listed => exact keeps _ established _ (spares_listed established reports spares)
  | @visitedAll map =>
      refine keeps _ established _ fun orphan isOrphan => ?_
      obtain ⟨entry, isEntry, rfl⟩ := List.mem_map.mp isOrphan
      obtain ⟨name, repeats, isKey⟩ := spares.indexed entry isEntry
      rw [isKey]
      refine key_ne_of_id established reports ?_
      rcases spares.own with ⟨_, isNone⟩ | ⟨_, _, ⟨row, member, _⟩, _⟩
      · exact JsMap.get_eq_none.mp isNone entry isEntry
      · cases member
  | missed missed =>
      exact keeps _ established _ ⟨spares.other_of_missed missed, spares.missed missed⟩
  | drifted found drifted =>
      have other := spares.other_of_drifted found drifted
      obtain ⟨name, repeats, isKey⟩ := spares.indexed _ (JsMap.get_eq_some.mp found)
      refine keeps _ (established.removal ?_ input) _ ⟨other, spares.delete⟩
      rw [isKey]
      exact key_ne_of_id established reports other
  | matched => exact keeps _ established _ spares.delete
  | enqueued => exact keeps _ (established.addRecurring reports spares.1 input.now) _ spares
  | recorded => exact keeps _ (established.setBullJobId _ _) _ spares.2
  | @removed orphan orphans =>
      refine keeps _ (established.removal (spares orphan List.mem_cons_self) input) _ ?_
      exact fun other member => spares other (List.mem_cons_of_mem _ member)
  | finished => exact keeps _ established _ trivial

theorem Unbroken.step {heartbeat next : Heartbeat} {beat : Beat services.bull}
    (unbroken : Unbroken services id repeatable heartbeat)
    (lasts : exhausted services heartbeat.state beat ≠ some id)
    (taken : heartbeat.step services beat = some next) :
    Unbroken services id repeatable next := by
  cases beat_effect taken with
  | ran sameRepeatables recorded =>
      exact ⟨unbroken.established.run sameRepeatables recorded lasts, unbroken.spares⟩
  | started => exact ⟨unbroken.established, fun pass isPass => Option.some.inj isPass ▸ trivial⟩
  | @advanced listing _ _ _ _ isPass effect => exact unbroken.advance listing.2 isPass effect
  | restarted => exact ⟨unbroken.established, by simp⟩

/-- After a run that used up its retries the row is not selected any more. -/
theorem lasts_of_kept {heartbeat next : Heartbeat} {beat : Beat services.bull}
    (taken : heartbeat.step services beat = some next) (kept : Kept id repeatable next) :
    exhausted services heartbeat.state beat ≠ some id := by
  intro isExhausted
  obtain ⟨⟨row, selected, isId⟩, _⟩ := kept
  obtain ⟨member, isSelected⟩ := List.mem_filter.mp selected
  cases beat_effect taken with
  | ran _ recorded =>
      rw [isExhausted] at recorded
      rw [status_recorded recorded member isId] at isSelected
      simp at isSelected
  | started | advanced | restarted => cases isExhausted

end Steps

def nightly : Request :=
  .scheduleRecurring
    { guildId := none, kind := js "backup", payload := .obj [], cron := some (js "0 3 * * *")
      everyMs := none, timezone := some (js "Europe/Lisbon"), idempotencyKey := js "nightly-backup"
      deferrableInMaintenance := none, maxAttempts := none }

def nightlyState : State := (perform keyedServices .start nightly (working "s")).1

def nightlyRow : ScheduleEntity :=
  { id := js "s", guildId := none, kind := js "backup", type := .recurring, status := .active
    payload := .obj [], idempotencyKey := some (js "nightly-backup"), cron := some (js "0 3 * * *")
    everyMs := none, timezone := js "Europe/Lisbon", nextRunAt := none, lastRunAt := none
    deferrable := true, maxAttempts := 5, bullJobId := none, deletedAt := none }

def nightlyRepeatable : Repeatable := repeatableOf keyedServices nightlyRow 0

theorem nightly_established : Established keyedServices (js "s") nightlyRepeatable nightlyState where
  row := ⟨nightlyRow.withJob nightlyRepeatable.key, List.mem_singleton_self _, rfl, rfl, rfl, rfl,
    rfl⟩
  registered := ⟨by decide +kernel, by decide +kernel⟩
  sole := rfl

def wholePass : List (Beat keyedServices.bull) :=
  .startPass :: List.replicate 5 (.advancePass ⟨plainListing, plainReports⟩ (working "s" 0))

end Scheduler
