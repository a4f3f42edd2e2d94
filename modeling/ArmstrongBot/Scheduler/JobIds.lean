import ArmstrongBot.Library.JsMethods
import ArmstrongBot.Scheduler.Concurrency
import ArmstrongBot.Scheduler.Reconciler

/-! The job ids that schedules are added with, what `deriveIdempotencyKey` makes of a tuple, and the
entries of the queue that the steps of calls find under them. -/

namespace Scheduler

open JsText
open Calendar (Timestamp)

def colon : CodeUnit := unit 58

/-- The parts of the tuple of a one-shot schedule, one after the other and each cut at its colons,
the guild `global` where there is none. -/
def CreateScheduleInput.pieces (data : CreateScheduleInput) : Option (List JsString) :=
  match data.type with
  | .once => data.idempotencyKey.map fun key =>
      split colon (data.guildId.getD (js "global")) ++ split colon data.kind ++ split colon key
  | .recurring => none

/-- The entries that are found under a job id, or under the key of a repeatable, stay what they
are. -/
def Queue.Keeps (queue next : Queue) : ScheduleType × JsString → Prop
  | (.once, jobId) => ∀ job, job.id = jobId → (job ∈ next.jobs ↔ job ∈ queue.jobs)
  | (.recurring, repeatKey) => ∀ repeatable, repeatable.key = repeatKey →
      (repeatable ∈ next.repeatables ↔ repeatable ∈ queue.repeatables)

section

variable (services : Services)

/-- What the service asks the table for, of requests that pass their schema. -/
def Requested (data : CreateScheduleInput) : Prop :=
  ∃ request now, Request.isValid services request = true ∧ request.data services now = some data

/-- The `jobId` that `addOnce` or `addRecurring` passes on. -/
def builtJobId (entity : ScheduleEntity) : JsString :=
  match entity.type with
  | .once => jobIdOf services entity
  | .recurring => (jobData entity 0).scheduleId

/-- Where the next step of a call removes from the queue or adds to it. -/
def Call.uses : Call → Option (ScheduleType × JsString)
  | .clearing entity => some (.once, jobIdOf services entity)
  | .adding entity => some (entity.type, referenceOf services entity)
  | .unqueueing existing _ => existing.bullJobId.map fun id => (existing.type, id)
  | _ => none

/-- The job ids differ, and the steps under the first schedule, of any call in any state, neither
take away the entry of the second one nor occupy its place. -/
def Separate (first second : ScheduleEntity) : Prop :=
  builtJobId services first ≠ builtJobId services second ∧
    ∀ (state next : State) (call later : Call) (input : Input),
      call.uses services = some (first.type, referenceOf services first) →
      advance services state call input = some (next, later) →
        state.queue.Keeps next.queue (second.type, referenceOf services second)

end

/-! The text of a job id and its pieces. -/

theorem split_injective (separator : CodeUnit) {left right : JsString} :
    split separator left = split separator right ↔ left = right := by
  constructor
  · intro same
    have joined := congrArg (List.intercalate [separator]) same
    simpa only [split, List.intercalate_splitOn] using joined
  · rintro rfl
    rfl

theorem split_append (separator : CodeUnit) (left right : JsString) :
    split separator (left ++ separator :: right) = split separator left ++ split separator right :=
  List.splitOn_append_cons_self left right

section

variable {services : Services} {data : CreateScheduleInput}

theorem Requested.key_nonempty (requested : Requested services data) :
    data.idempotencyKey ≠ some [] := by
  obtain ⟨request, now, valid, isData⟩ := requested
  cases request with
  | scheduleOnce input =>
      cases isData
      simp only [Request.isValid, ScheduleOnceInput.isValid, Bool.and_eq_true,
        decide_eq_true_eq] at valid
      exact valid.1.1.2
  | scheduleRecurring input =>
      cases isData
      simp only [Request.isValid, ScheduleRecurringInput.isValid, Bool.and_eq_true,
        decide_eq_true_eq] at valid
      exact fun empty => valid.1.1.1.2 (Option.some.inj empty)
  | cancel id guildId => cases isData

theorem jobIdOf_keyed (requested : Requested services data) {key : JsString}
    (isKey : data.idempotencyKey = some key) (id : JsString) :
    jobIdOf services (data.row id) =
      data.guildId.getD (js "global") ++ colon :: (data.kind ++ colon :: key) := by
  have nonempty : key ≠ [] := fun empty => requested.key_nonempty (isKey.trans (by rw [empty]))
  have sameKey : (data.row id).idempotencyKey = some key := isKey
  have kept : (some key).filter (fun key => key ≠ []) = some key := by simp [nonempty]
  have separator : js ":" = [colon] := by decide
  simp only [jobIdOf, sameKey, kept, deriveIdempotencyKey, separator, List.append_assoc]
  rfl

theorem jobIdOf_unkeyed (noKey : data.idempotencyKey = none) (id : JsString) :
    jobIdOf services (data.row id) = id := by
  have sameKey : (data.row id).idempotencyKey = none := noKey
  rw [jobIdOf, sameKey]
  rfl

theorem builtJobId_row (requested : Requested services data) (id : JsString) :
    data.pieces = none ∧ builtJobId services (data.row id) = id ∨
      data.pieces = some (split colon (builtJobId services (data.row id))) ∧
        colon ∈ builtJobId services (data.row id) := by
  cases isType : data.type with
  | recurring =>
      have sameType : (data.row id).type = .recurring := isType
      left
      simp only [CreateScheduleInput.pieces, isType, builtJobId, sameType, true_and]
      rfl
  | once =>
      have sameType : (data.row id).type = .once := isType
      simp only [CreateScheduleInput.pieces, isType, builtJobId, sameType]
      cases isKey : data.idempotencyKey with
      | none => exact .inl ⟨rfl, jobIdOf_unkeyed isKey id⟩
      | some key =>
          right
          rw [jobIdOf_keyed requested isKey, split_append, split_append]
          exact ⟨congrArg some (List.append_assoc _ _ _), by simp⟩

end

/-! What a step leaves alone. -/

section

variable {queue : Queue} {entry : ScheduleType × JsString}

theorem keeps_refl : queue.Keeps queue entry := by
  obtain ⟨type, id⟩ := entry
  cases type with
  | once => exact fun _ _ => Iff.rfl
  | recurring => exact fun _ _ => Iff.rfl

theorem keeps_removeJob {jobId : JsString} (other : entry ≠ (.once, jobId)) :
    queue.Keeps (queue.removeJob jobId) entry := by
  obtain ⟨type, id⟩ := entry
  cases type with
  | once =>
      intro job isJob
      have apart : job.id ≠ jobId := fun same => other (by rw [← isJob, same])
      simp [Queue.removeJob, apart]
  | recurring => exact fun _ _ => Iff.rfl

theorem keeps_removeRepeatable {repeatKey : JsString} (other : entry ≠ (.recurring, repeatKey)) :
    queue.Keeps (queue.removeRepeatable repeatKey) entry := by
  obtain ⟨type, id⟩ := entry
  cases type with
  | once => exact fun _ _ => Iff.rfl
  | recurring =>
      intro repeatable isKey
      have apart : repeatable.key ≠ repeatKey := fun same => other (by rw [← isKey, same])
      simp [Queue.removeRepeatable, apart]

theorem keeps_add {bull : BullMQ} {jobId : JsString} {added : DelayedJob} {next : Queue}
    (other : entry ≠ (.once, jobId)) (taken : queue.add bull jobId added = some next) :
    queue.Keeps next entry := by
  obtain rfl := Option.some.inj (Option.ite_none_right_eq_some.mp taken).2
  obtain ⟨type, id⟩ := entry
  cases type with
  | once =>
      intro job isJob
      rw [JobQueue.mem_add]
      refine ⟨?_, .inl⟩
      rintro (earlier | ⟨_, rfl⟩)
      · exact earlier
      · exact absurd (by rw [← isJob]) other
  | recurring => exact fun _ _ => Iff.rfl

theorem keeps_addRecurring {added : Repeatable} (other : entry ≠ (.recurring, added.key)) :
    queue.Keeps (queue.addRecurring added) entry := by
  obtain ⟨type, id⟩ := entry
  cases type with
  | once => exact fun _ _ => Iff.rfl
  | recurring =>
      intro repeatable isKey
      have apart : repeatable.key ≠ added.key := fun same => other (by rw [← isKey, same])
      have isOther : repeatable ≠ added := fun same => apart (by rw [same])
      simp [Queue.addRecurring, Queue.removeRepeatable, apart, isOther]

variable {services : Services}

theorem keeps_removeFromQueue {existing : ScheduleEntity} {data : Option CreateScheduleInput}
    (other : (Call.unqueueing existing data).uses services ≠ some entry) :
    queue.Keeps (removeFromQueue queue existing) entry := by
  unfold removeFromQueue
  split
  · exact keeps_refl
  · rename_i bullJobId kept
    have isJob : existing.bullJobId = some bullJobId := (Option.filter_eq_some_iff.mp kept).1
    rw [Call.uses, isJob] at other
    split
    · rename_i isType
      exact keeps_removeRepeatable fun same => other (by rw [same, isType]; rfl)
    · rename_i isType
      exact keeps_removeJob fun same => other (by rw [same, isType]; rfl)

/-- A step leaves alone what is not under the reference that it uses. -/
theorem step_keeps {state next : State} {call later : Call} {input : Input}
    (other : call.uses services ≠ some entry)
    (taken : advance services state call input = some (next, later)) :
    state.queue.Keeps next.queue entry := by
  cases advance_effect taken with
  | unqueued => exact keeps_removeFromQueue other
  | cleared => exact keeps_removeJob fun same => other (congrArg some same.symm)
  | added isOnce added =>
      refine keeps_add (fun same => other ?_) added
      rw [Call.uses, same, referenceOf, isOnce]
  | addedRecurring recurring =>
      refine keeps_addRecurring fun same => other ?_
      rw [Call.uses, same, referenceOf, recurring]
      rfl
  | _ => exact keeps_refl

end

section

variable (services : Services) {first second : CreateScheduleInput} {firstId secondId : JsString}

/-- Two rows have one job id exactly when their tuples have the same pieces. -/
theorem builtJobId_eq_iff (firstRequested : Requested services first)
    (secondRequested : Requested services second) (apart : firstId ≠ secondId)
    (firstMade : colon ∉ firstId) (secondMade : colon ∉ secondId) :
    builtJobId services (first.row firstId) = builtJobId services (second.row secondId) ↔
      ∃ pieces, first.pieces = some pieces ∧ second.pieces = some pieces := by
  rcases builtJobId_row firstRequested firstId with ⟨firstNone, isFirst⟩ | ⟨firstSome, firstColon⟩
  · simp only [firstNone, reduceCtorEq, false_and, exists_false, iff_false, isFirst]
    rcases builtJobId_row secondRequested secondId with ⟨_, isSecond⟩ | ⟨_, secondColon⟩
    · rwa [isSecond]
    · exact fun same => firstMade (same ▸ secondColon)
  · rcases builtJobId_row secondRequested secondId with ⟨secondNone, isSecond⟩ | ⟨secondSome, _⟩
    · simp only [secondNone, reduceCtorEq, and_false, exists_false, iff_false, isSecond]
      exact fun same => secondMade (same ▸ firstColon)
    · rw [firstSome, secondSome, ← split_injective colon]
      constructor
      · exact fun same => ⟨_, rfl, by rw [same]⟩
      · rintro ⟨pieces, isFirst, isSecond⟩
        exact (Option.some.inj isFirst).trans (Option.some.inj isSecond).symm

/-- Two rows of accepted requests are kept apart exactly when they are not both one-shot schedules
with keys whose tuples have the same pieces. -/
theorem separate_iff
    (separates : ∀ name id repeats otherName otherId otherRepeats,
      services.bull.repeatKey name id repeats =
        services.bull.repeatKey otherName otherId otherRepeats → id = otherId)
    (firstRequested : Requested services first) (secondRequested : Requested services second)
    (apart : firstId ≠ secondId) (firstMade : colon ∉ firstId) (secondMade : colon ∉ secondId) :
    Separate services (first.row firstId) (second.row secondId) ↔
      ¬ ∃ pieces, first.pieces = some pieces ∧ second.pieces = some pieces := by
  rw [← builtJobId_eq_iff services firstRequested secondRequested apart firstMade secondMade]
  constructor
  · exact fun separate => separate.1
  · intro other
    refine ⟨other, ?_⟩
    intro state next call later input uses taken
    refine step_keeps (fun used => ?_) taken
    have same := Option.some.inj (uses.symm.trans used)
    obtain ⟨sameType, sameReference⟩ := Prod.mk.inj same
    cases isType : (second.row secondId).type with
    | once =>
        simp only [referenceOf, sameType, isType] at sameReference
        simp only [builtJobId, sameType, isType] at other
        exact other sameReference
    | recurring =>
        simp only [referenceOf, sameType, isType] at sameReference
        exact apart (separates _ _ _ _ _ _ sameReference)

end

/-! One reminder for the platform, for a guild, and for a guild that is named like the stand-in for
the platform. -/

def keyedReminder (guildId : Option JsString) : ScheduleOnceInput :=
  { guildId, kind := js "remind", payload := .bool true, runAt := none, delayMs := some 1000
    idempotencyKey := some (js "k"), deferrableInMaintenance := none, maxAttempts := none }

def reminderFor (guildId : Option JsString) : CreateScheduleInput :=
  (keyedReminder guildId).row keyedServices 0

theorem reminderFor_requested (guildId : Option JsString) :
    Requested keyedServices (reminderFor guildId) :=
  ⟨.scheduleOnce (keyedReminder guildId), 0, rfl, rfl⟩

theorem guild_and_platform_separate :
    Separate keyedServices ((reminderFor none).row (js "a"))
      ((reminderFor (some (js "g"))).row (js "b")) := by
  refine (separate_iff keyedServices plainReports.separates (reminderFor_requested none)
    (reminderFor_requested (some (js "g"))) (by decide) (by decide) (by decide)).mpr ?_
  rintro ⟨pieces, isFirst, isSecond⟩
  have same := isFirst.trans isSecond.symm
  exact absurd same (by decide +kernel)

/-- Two tuples that the scheduler tells apart have one job id, and scheduling the second removes the
job of the first, whose row stays live and pending. -/
theorem global_guild_removes_platform_job :
    (reminderFor none).slot ≠ (reminderFor (some (js "global"))).slot ∧
      ¬ Separate keyedServices ((reminderFor none).row (js "a"))
        ((reminderFor (some (js "global"))).row (js "b")) ∧
      let state := after keyedServices
        [.call (.scheduleOnce (keyedReminder none)) callSteps (working "a"),
          .call (.scheduleOnce (keyedReminder (some (js "global")))) callSteps (working "b")]
      (state.schedules.rows.map fun row => (row.id, row.isLive, row.status)) =
          [(js "a", true, .pending), (js "b", true, .pending)] ∧
        (state.queue.jobs.map fun job => job.data.data.scheduleId) = [js "b"] := by
  refine ⟨by decide +kernel, ?_, by decide +kernel⟩
  exact fun separate => absurd (by decide +kernel) separate.1

end Scheduler
