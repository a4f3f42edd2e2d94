import ArmstrongBot.Library.Courses
import ArmstrongBot.Scheduler.Worker

/-! `SchedulerWorker.process`: the handler and the bookkeeping around it, of which every awaited
step may fail, over all attempts that the queue makes of a job. -/

namespace Scheduler

open JsText JsNumber Courses
open Calendar (Timestamp)

/-- A job as the queue hands it over: `scheduledFor` is the date that its data has as a text. -/
structure QueuedJob where
  data : SchedulerJobData
  scheduledFor : Timestamp
  attempts : Option Nat

def QueuedJob.maxAttempts (job : QueuedJob) : Nat := job.attempts.getD 1

structure NewRun where
  scheduleId : JsString
  guildId : Option JsString
  attempt : Nat
  status : ScheduleStatus
  traceId : Option JsString

structure RunUpdate where
  status : ScheduleStatus
  finishedAt : Timestamp
  durationMs : Int
  error : Option JsString

structure ScheduleUpdate where
  lastRunAt : Option Timestamp
  status : Option ScheduleStatus

/-- What an attempt does: the steps of the bookkeeping, and the handler with its error. -/
inductive Entry
  | runCreated (id : JsString) (run : NewRun)
  | published (event : SchedulerEvent) (params : LifecycleParams)
  | handled (runId : JsString) (error : Option LifecycleError)
  | runFinished (runId : JsString) (update : RunUpdate)
  | updated (scheduleId : JsString) (update : ScheduleUpdate)
  | recorded (kind status : JsString) (durationMs : Int)

/-- What an attempt meets: whether a handler is registered, the id of its run, the successive
readings of the clock and of the trace, the rows that it finds, the error of the handler's `parse`
or `handle`, and what becomes of every awaited step. -/
structure Attempt where
  resolves : Bool
  runId : JsString
  clock : Nat → Timestamp
  traceId : Nat → JsString
  rows : Schedules
  handled : Option LifecycleError
  created : Outcome LifecycleError
  started : Outcome LifecycleError
  finished : Outcome LifecycleError
  found : Outcome LifecycleError
  updated : Outcome LifecycleError
  completed : Outcome LifecycleError
  finishedFailed : Outcome LifecycleError
  failed : Outcome LifecycleError
  updatedFailed : Outcome LifecycleError
  deadLettered : Outcome LifecycleError

/-- A one-shot job completes terminally. -/
def terminalStatusFor (schedules : Schedules) (scheduleId : JsString) : Option ScheduleStatus :=
  match schedules.findById scheduleId none with
  | some entity => if entity.type = .once then some .completed else none
  | none => none

section

variable (job : QueuedJob) (attemptsMade : Nat) (attempt : Attempt)

def lifecycleParams (status : ScheduleStatus) (traceId : JsString) (error : Option LifecycleError) :
    LifecycleParams :=
  { jobId := job.data.scheduleId, kind := job.data.kind, guildId := job.data.guildId, status
    attempt := .ofNat (attemptsMade + 1), scheduledFor := job.scheduledFor, traceId, error }

def newRun : NewRun :=
  { scheduleId := job.data.scheduleId, guildId := job.data.guildId, attempt := attemptsMade + 1
    status := .active, traceId := none }

def handlerCourse : Course Entry LifecycleError :=
  { steps := [.handled attempt.runId attempt.handled], error := attempt.handled }

/-- What follows the handler in the `try` block. -/
def completion : Course Entry LifecycleError :=
  let durationMs := attempt.clock 1 - attempt.clock 0
  (await attempt.finished (.runFinished attempt.runId
    { status := .completed, finishedAt := attempt.clock 2, durationMs, error := none })).andThen <|
  Course.andThen { steps := [], error := attempt.found.error } <|
  (await attempt.updated (.updated job.data.scheduleId
    { lastRunAt := some (attempt.clock 3)
      status := terminalStatusFor attempt.rows job.data.scheduleId })).andThen <|
  (await .works (.recorded job.data.kind (js "completed") durationMs)).andThen <|
  await attempt.completed (.published .completed
    (lifecycleParams job attemptsMade .completed (attempt.traceId 0) none))

/-- The `catch` block, which throws the error again. -/
def failure (error : LifecycleError) : Course Entry LifecycleError :=
  let willRetry := decide (attemptsMade + 1 < job.maxAttempts)
  let durationMs := attempt.clock 4 - attempt.clock 0
  (await attempt.finishedFailed (.runFinished attempt.runId
    { status := .failed, finishedAt := attempt.clock 5, durationMs
      error := some error.message })).andThen <|
  (await .works (.recorded job.data.kind (if willRetry then js "retried" else js "failed")
    durationMs)).andThen <|
  (await attempt.failed (.published (if willRetry then .retried else .failed)
    (lifecycleParams job attemptsMade .failed (attempt.traceId 1) (some error)))).andThen <|
  Course.andThen
    (if willRetry then nothing
    else
      (await attempt.updatedFailed (.updated job.data.scheduleId
        { lastRunAt := none, status := some .failed })).ignoring.andThen <|
      await attempt.deadLettered (.published .deadLettered
        (lifecycleParams job attemptsMade .failed (attempt.traceId 2) (some error)))) <|
  raise error

/-- What precedes the `try` block. -/
def preparation : Course Entry LifecycleError :=
  (await attempt.created (.runCreated attempt.runId (newRun job attemptsMade))).andThen <|
  await attempt.started (.published .started
    (lifecycleParams job attemptsMade .active (js "pending") none))

def process : Course Entry LifecycleError :=
  if attempt.resolves then
    (preparation job attemptsMade attempt).andThen <|
    ((handlerCourse attempt).andThen (completion job attemptsMade attempt)).catching
      (failure job attemptsMade attempt)
  else
    raise
      { code := js "Error"
        message := js "No handler for kind \"" ++ job.data.kind ++ js "\"" }

end

/-- BullMQ makes another attempt of a job that throws while it has attempts left. -/
def occurrence (job : QueuedJob) (script : Nat → Attempt) : List Entry :=
  retrying (fun made => process job made (script made)) 0 (max 1 job.maxAttempts)

/-- The later entry holds it against a run that its handler has returned: the run or the schedule is
written down as failed, the job is dead-lettered, or the handler executed again. -/
def Entry.wrongs (earlier later : Entry) : Bool :=
  match earlier, later with
  | .handled runId none, .runFinished finished update => finished = runId && update.status = .failed
  | .handled _ none, .updated _ update => update.status = some .failed
  | .handled _ none, .published event _ => event = .deadLettered
  | .handled _ none, .handled _ _ => true
  | _, _ => false

def Honoured (entries : List Entry) : Prop :=
  entries.Pairwise fun earlier later => earlier.wrongs later = false

instance (entries : List Entry) : Decidable (Honoured entries) :=
  inferInstanceAs (Decidable (List.Pairwise _ _))

namespace Attempt

def starts (attempt : Attempt) : Bool :=
  attempt.resolves && attempt.created.error.isNone && attempt.started.error.isNone

def returns (attempt : Attempt) : Bool := attempt.starts && attempt.handled.isNone

/-- Nothing fails that follows the handler in the `try` block. -/
def settles (attempt : Attempt) : Bool :=
  attempt.finished.error.isNone && attempt.found.error.isNone && attempt.updated.error.isNone &&
    attempt.completed.error.isNone

/-- The run cannot be written down as failed either. -/
def unmarked (attempt : Attempt) : Bool :=
  match attempt.finishedFailed with
  | .fails false _ => true
  | _ => false

end Attempt

/-- Of the attempts that the queue may make, the first one whose handler returns ends without a
failure, or its run cannot be written down as failed and the handler is reached in none of the
later ones. -/
def Harmless (script : Nat → Attempt) (made left : Nat) : Prop :=
  ∀ index, made ≤ index → index < made + left → (script index).returns = true →
    (∀ earlier, made ≤ earlier → earlier < index → (script earlier).returns = false) →
      (script index).settles = true ∨ (script index).unmarked = true ∧
        ∀ later, index < later → later < made + left → (script later).starts = false

/-! Which entries hold what against which. -/

def Entry.isHandled : Entry → Bool
  | .handled _ _ => true
  | _ => false

def Entry.isReturn : Entry → Bool
  | .handled _ none => true
  | _ => false

theorem wrongs_of_not_return {earlier : Entry} (other : earlier.isReturn = false) (later : Entry) :
    earlier.wrongs later = false := by
  cases earlier with
  | handled runId error =>
      cases error with
      | none => cases other
      | some error => rfl
  | _ => rfl

theorem harmless_of_returns {later : Entry}
    (harmless : ∀ runId, (Entry.handled runId none).wrongs later = false) (earlier : Entry) :
    earlier.wrongs later = false := by
  cases earlier with
  | handled runId error =>
      cases error with
      | none => exact harmless runId
      | some error => rfl
  | _ => rfl

theorem isReturn_of_not_handled {entry : Entry} (other : entry.isHandled = false) :
    entry.isReturn = false := by
  cases entry with
  | handled runId error => cases other
  | _ => rfl

theorem honoured_append {first second : List Entry} :
    Honoured (first ++ second) ↔ Honoured first ∧ Honoured second ∧
      ∀ earlier ∈ first, ∀ later ∈ second, earlier.wrongs later = false :=
  List.pairwise_append

theorem honoured_of_no_return {entries : List Entry}
    (none : ∀ entry ∈ entries, entry.isReturn = false) : Honoured entries :=
  List.pairwise_of_forall_mem_list fun earlier member later _ =>
    wrongs_of_not_return (none earlier member) later

theorem honoured_around {before after : List Entry} {entry : Entry}
    (noneBefore : ∀ earlier ∈ before, earlier.isReturn = false)
    (noneAfter : ∀ later ∈ after, later.isReturn = false) :
    Honoured (before ++ entry :: after) ↔ ∀ later ∈ after, entry.wrongs later = false := by
  rw [honoured_append]
  constructor
  · rintro ⟨_, holds, _⟩
    exact (List.pairwise_cons.mp holds).1
  · intro holds
    refine ⟨honoured_of_no_return noneBefore, List.pairwise_cons.mpr ⟨holds, ?_⟩, ?_⟩
    · exact honoured_of_no_return noneAfter
    · exact fun earlier member later _ => wrongs_of_not_return (noneBefore earlier member) later

/-! One attempt. -/

section

variable {job : QueuedJob} {attemptsMade : Nat} {attempt : Attempt}

theorem Attempt.returns_iff :
    attempt.returns = true ↔ attempt.starts = true ∧ attempt.handled = none := by
  rw [Attempt.returns, Bool.and_eq_true, Option.isNone_iff_eq_none]

theorem terminalStatusFor_ne_failed (schedules : Schedules) (scheduleId : JsString) :
    terminalStatusFor schedules scheduleId ≠ some .failed := by
  unfold terminalStatusFor
  split
  · split <;> simp
  · simp

theorem completion_error :
    (completion job attemptsMade attempt).error = none ↔ attempt.settles = true := by
  simp [completion, andThen_error_eq_none, Attempt.settles, Outcome.error, and_assoc]

theorem completion_harmless {step : Entry}
    (member : step ∈ (completion job attemptsMade attempt).steps) :
    step.isHandled = false ∧ ∀ runId, (Entry.handled runId none).wrongs step = false := by
  rcases mem_andThen member with isFinished | member
  · obtain rfl := mem_await isFinished
    exact ⟨rfl, fun runId => by simp [Entry.wrongs]⟩
  rcases mem_andThen member with isFound | member
  · cases isFound
  rcases mem_andThen member with isUpdated | member
  · obtain rfl := mem_await isUpdated
    exact ⟨rfl, fun runId => decide_eq_false (terminalStatusFor_ne_failed _ _)⟩
  rcases mem_andThen member with isRecorded | member
  · obtain rfl := mem_await isRecorded
    exact ⟨rfl, fun _ => rfl⟩
  · obtain rfl := mem_await member
    exact ⟨rfl, fun _ => rfl⟩

theorem failure_error (error : LifecycleError) :
    (failure job attemptsMade attempt error).error ≠ none := by
  simp [failure, andThen_error_eq_none, raise]

theorem failure_unhandled {error : LifecycleError} {step : Entry}
    (member : step ∈ (failure job attemptsMade attempt error).steps) : step.isHandled = false := by
  rcases mem_andThen member with isFinished | member
  · obtain rfl := mem_await isFinished
    rfl
  rcases mem_andThen member with isRecorded | member
  · obtain rfl := mem_await isRecorded
    rfl
  rcases mem_andThen member with isFailed | member
  · obtain rfl := mem_await isFailed
    rfl
  rcases mem_andThen member with isLast | member
  · split at isLast
    · cases isLast
    · rcases mem_andThen isLast with isUpdated | isDead
      · obtain rfl := mem_await isUpdated
        rfl
      · obtain rfl := mem_await isDead
        rfl
  · cases member

/-- The `catch` block writes the run down as failed unless that very step fails. -/
theorem failure_harmless_iff (error : LifecycleError) :
    (∀ step ∈ (failure job attemptsMade attempt error).steps,
        (Entry.handled attempt.runId none).wrongs step = false) ↔ attempt.unmarked = true := by
  have writes : ∀ {update : RunUpdate}, update.status = .failed →
      (Entry.handled attempt.runId none).wrongs (.runFinished attempt.runId update) = true := by
    intro update isFailed
    simp [Entry.wrongs, isFailed]
  unfold Attempt.unmarked
  cases marks : attempt.finishedFailed with
  | works =>
      refine iff_of_false (fun harmless => ?_) (by simp)
      have wrong := harmless _ (by
        rw [failure, marks, andThen_of_none rfl]
        exact List.mem_cons_self)
      rw [writes rfl] at wrong
      cases wrong
  | fails tookPlace reported =>
      cases tookPlace with
      | true =>
          refine iff_of_false (fun harmless => ?_) (by simp)
          have wrong := harmless _ (by
            rw [failure, marks, andThen_of_some rfl]
            exact List.mem_cons_self)
          rw [writes rfl] at wrong
          cases wrong
      | false =>
          refine iff_of_true (fun step member => ?_) rfl
          rw [failure, marks, andThen_of_some rfl] at member
          cases member

theorem preparation_harmless {step : Entry}
    (member : step ∈ (preparation job attemptsMade attempt).steps) :
    step.isHandled = false ∧ ∀ earlier : Entry, earlier.wrongs step = false := by
  rcases mem_andThen member with isCreated | isStarted
  · obtain rfl := mem_await isCreated
    exact ⟨rfl, harmless_of_returns fun _ => rfl⟩
  · obtain rfl := mem_await isStarted
    exact ⟨rfl, harmless_of_returns fun _ => rfl⟩

theorem process_unstarted (idle : attempt.starts = false) :
    (process job attemptsMade attempt).error ≠ none ∧
      ∀ step ∈ (process job attemptsMade attempt).steps, step.isHandled = false ∧
        ∀ earlier : Entry, earlier.wrongs step = false := by
  unfold process
  split
  · rename_i resolves
    have fails : (preparation job attemptsMade attempt).error ≠ none := by
      intro works
      simp only [preparation, andThen_error_eq_none, await_error] at works
      simp [Attempt.starts, resolves, works] at idle
    obtain ⟨error, isError⟩ := Option.ne_none_iff_exists'.mp fails
    rw [andThen_of_some isError]
    exact ⟨fails, fun step => preparation_harmless⟩
  · exact ⟨by simp [raise], by simp [raise]⟩

theorem process_started (starts : attempt.starts = true) :
    process job attemptsMade attempt =
      { steps := (preparation job attemptsMade attempt).steps ++
          (((handlerCourse attempt).andThen (completion job attemptsMade attempt)).catching
            (failure job attemptsMade attempt)).steps
        error := (((handlerCourse attempt).andThen (completion job attemptsMade attempt)).catching
          (failure job attemptsMade attempt)).error } := by
  simp only [Attempt.starts, Bool.and_eq_true, Option.isNone_iff_eq_none] at starts
  have works : (preparation job attemptsMade attempt).error = none := by
    simp [preparation, andThen_error_eq_none, starts]
  rw [process, if_pos starts.1.1, andThen_of_none works]

theorem process_unreturned (unreturned : attempt.returns = false) :
    (process job attemptsMade attempt).error ≠ none ∧
      ∀ step ∈ (process job attemptsMade attempt).steps, step.isReturn = false := by
  cases starts : attempt.starts with
  | false =>
      refine (process_unstarted starts).imp_right fun harmless step member => ?_
      exact isReturn_of_not_handled (harmless step member).1
  | true =>
      rw [Attempt.returns, starts, Bool.true_and, Option.isNone_eq_false_iff] at unreturned
      obtain ⟨error, handled⟩ := Option.isSome_iff_exists.mp unreturned
      have fails : (handlerCourse attempt).error = some error := handled
      rw [process_started starts, andThen_of_some fails, catching_of_some fails]
      refine ⟨failure_error error, fun step member => ?_⟩
      rcases List.mem_append.mp member with isPrepared | member
      · exact isReturn_of_not_handled (preparation_harmless isPrepared).1
      rcases List.mem_append.mp member with isHandled | isFailure
      · rw [List.mem_singleton.mp isHandled, handled]
        rfl
      · exact isReturn_of_not_handled (failure_unhandled isFailure)

theorem process_settled (returns : attempt.returns = true) (settles : attempt.settles = true) :
    (process job attemptsMade attempt).error = none ∧
      Honoured (process job attemptsMade attempt).steps := by
  obtain ⟨starts, handled⟩ := Attempt.returns_iff.mp returns
  have works : (handlerCourse attempt).error = none := handled
  have ends : ((handlerCourse attempt).andThen
      (completion job attemptsMade attempt)).error = none :=
    andThen_error_eq_none.mpr ⟨works, completion_error.mpr settles⟩
  rw [process_started starts, catching_of_none ends, andThen_of_none works]
  refine ⟨completion_error.mpr settles, ?_⟩
  rw [handlerCourse, handled]
  refine (honoured_around (fun step member => ?_) fun step member => ?_).mpr fun step member => ?_
  · exact isReturn_of_not_handled (preparation_harmless member).1
  · exact isReturn_of_not_handled (completion_harmless member).1
  · exact (completion_harmless member).2 attempt.runId

/-- Where something fails after the handler has returned, it throws, and what it does is right only
if the run cannot be written down as failed. -/
theorem process_unsettled (returns : attempt.returns = true) (unsettled : attempt.settles = false) :
    (process job attemptsMade attempt).error ≠ none ∧
      (Honoured (process job attemptsMade attempt).steps ↔ attempt.unmarked = true) := by
  obtain ⟨starts, handled⟩ := Attempt.returns_iff.mp returns
  have works : (handlerCourse attempt).error = none := handled
  have fails : (completion job attemptsMade attempt).error ≠ none := by
    rw [Ne, completion_error, unsettled]
    decide
  obtain ⟨error, isError⟩ := Option.ne_none_iff_exists'.mp fails
  have ends : ((handlerCourse attempt).andThen
      (completion job attemptsMade attempt)).error = some error := by
    rw [andThen_of_none works]
    exact isError
  rw [process_started starts, catching_of_some ends, andThen_of_none works]
  refine ⟨failure_error error, ?_⟩
  rw [← @failure_harmless_iff job attemptsMade attempt error, handlerCourse, handled,
    List.append_assoc, List.singleton_append]
  refine (honoured_around (fun step member => ?_) fun step member => ?_).trans ?_
  · exact isReturn_of_not_handled (preparation_harmless member).1
  · rcases List.mem_append.mp member with isCompletion | isFailure
    · exact isReturn_of_not_handled (completion_harmless isCompletion).1
    · exact isReturn_of_not_handled (failure_unhandled isFailure)
  · rw [List.forall_mem_append]
    exact and_iff_right fun step member => (completion_harmless member).2 attempt.runId

end

/-! The attempts of a job. -/

section

variable {job : QueuedJob} {script : Nat → Attempt}

theorem harmless_first {made left : Nat} (returns : (script made).returns = true) :
    Harmless script made (left + 1) ↔
      (script made).settles = true ∨ (script made).unmarked = true ∧
        ∀ later, made < later → later < made + (left + 1) → (script later).starts = false := by
  constructor
  · intro harmless
    exact harmless made (Nat.le_refl _) (by omega) returns fun earlier lower upper => by omega
  · intro fine index lower upper _ first
    rcases Nat.eq_or_lt_of_le lower with rfl | later
    · exact fine
    · exact absurd (first made (Nat.le_refl _) later) (by simp [returns])

theorem harmless_next {made left : Nat} (unreturned : (script made).returns = false) :
    Harmless script made (left + 1) ↔ Harmless script (made + 1) left := by
  constructor
  · intro harmless index lower upper returns first
    have fine := harmless index (by omega) (by omega) returns fun earlier lower upper => by
      rcases Nat.eq_or_lt_of_le lower with rfl | later
      · exact unreturned
      · exact first earlier later upper
    refine fine.imp_right fun bad => ⟨bad.1, ?_⟩
    exact fun later lower upper => bad.2 later lower (by omega)
  · intro harmless index lower upper returns first
    rcases Nat.eq_or_lt_of_le lower with rfl | later
    · exact absurd unreturned (by simp [returns])
    · have fine := harmless index later (by omega) returns fun earlier lower upper =>
        first earlier (by omega) upper
      refine fine.imp_right fun bad => ⟨bad.1, ?_⟩
      exact fun later lower upper => bad.2 later lower (by omega)

theorem handled_mem_process {attemptsMade : Nat} {attempt : Attempt}
    (starts : attempt.starts = true) :
    Entry.handled attempt.runId attempt.handled ∈ (process job attemptsMade attempt).steps := by
  rw [process_started starts]
  refine List.mem_append_right _ (mem_catching_left _ (mem_andThen_left _ ?_))
  exact List.mem_singleton_self _

theorem exists_handled {made left index : Nat} (lower : made ≤ index) (upper : index < made + left)
    (starts : (script index).starts = true) :
    ∃ entry ∈ retrying (fun made => process job made (script made)) made left,
      entry.isHandled = true := by
  refine exists_mem_retrying lower upper ⟨_, handled_mem_process starts, rfl⟩ ?_
  intro earlier _ _ ends
  cases began : (script earlier).starts with
  | false => exact absurd ends (process_unstarted began).1
  | true => exact ⟨_, handled_mem_process began, rfl⟩

theorem retrying_unstarted {made left : Nat}
    (idle : ∀ index, made ≤ index → index < made + left → (script index).starts = false) :
    ∀ entry ∈ retrying (fun made => process job made (script made)) made left,
      entry.isHandled = false ∧ ∀ earlier : Entry, earlier.wrongs entry = false :=
  forall_mem_retrying fun index lower upper => (process_unstarted (idle index lower upper)).2

/-- After a return into a failure, what follows is right if it is nothing. -/
theorem honoured_unsettled_iff {made left : Nat} (returns : (script made).returns = true)
    (unsettled : (script made).settles = false) :
    Honoured ((process job made (script made)).steps ++
        retrying (fun made => process job made (script made)) (made + 1) left) ↔
      (script made).unmarked = true ∧
        ∀ later, made < later → later < made + (left + 1) → (script later).starts = false := by
  obtain ⟨starts, handled⟩ := Attempt.returns_iff.mp returns
  have returned := @handled_mem_process job made _ starts
  rw [handled] at returned
  rw [honoured_append, (process_unsettled returns unsettled).2]
  refine and_congr_right fun _ => ?_
  constructor
  · rintro ⟨_, apart⟩ later lower upper
    cases startsAgain : (script later).starts with
    | false => rfl
    | true =>
        obtain ⟨entry, member, isHandled⟩ :=
          @exists_handled job script _ left _ lower (by omega) startsAgain
        have right := apart _ returned entry member
        cases entry with
        | handled runId error => cases right
        | _ => cases isHandled
  · intro idle
    have harmless := @retrying_unstarted job script (made + 1) left
      fun index lower upper => idle index lower (by omega)
    refine ⟨honoured_of_no_return ?_, ?_⟩
    · exact fun entry member => isReturn_of_not_handled (harmless entry member).1
    · exact fun earlier _ entry member => (harmless entry member).2 earlier

/-- The induction over the attempts, which the first return of the handler decides. -/
theorem honoured_retrying_iff (made left : Nat) :
    Honoured (retrying (fun made => process job made (script made)) made left) ↔
      Harmless script made left := by
  induction left generalizing made with
  | zero =>
      refine iff_of_true List.Pairwise.nil ?_
      intro index lower upper
      omega
  | succ left ih =>
      rw [retrying]
      cases returns : (script made).returns with
      | false =>
          obtain ⟨throws, unreturned⟩ := @process_unreturned job made _ returns
          rw [if_pos (Option.isSome_iff_ne_none.mpr throws), harmless_next returns, ← ih,
            honoured_append]
          constructor
          · exact fun honoured => honoured.2.1
          · intro honoured
            refine ⟨honoured_of_no_return unreturned, honoured, ?_⟩
            intro earlier member later _
            exact wrongs_of_not_return (unreturned earlier member) later
      | true =>
          rw [harmless_first returns]
          cases settles : (script made).settles with
          | true =>
              obtain ⟨ends, honoured⟩ := @process_settled job made _ returns settles
              rw [ends]
              simpa using honoured
          | false =>
              have throws := (@process_unsettled job made _ returns settles).1
              rw [if_pos (Option.isSome_iff_ne_none.mpr throws),
                honoured_unsettled_iff returns settles]
              simp only [Bool.false_eq_true, false_or]

/-- What is done of a job is right exactly when the first return of its handler does not lead into
a failure, or into one that leaves no trace and no attempt after it. -/
theorem honoured_iff (job : QueuedJob) (script : Nat → Attempt) :
    Honoured (occurrence job script) ↔ Harmless script 0 (max 1 job.maxAttempts) :=
  honoured_retrying_iff 0 _

end

/-! What the entries write into the table. -/

def ScheduleUpdate.write (update : ScheduleUpdate) (row : ScheduleEntity) : ScheduleEntity :=
  { row with
    lastRunAt := update.lastRunAt.or row.lastRunAt
    status := update.status.getD row.status }

def Entry.write (schedules : Schedules) : Entry → Schedules
  | .updated scheduleId update => schedules.update scheduleId update.write fun _ => ⟨rfl, rfl⟩
  | _ => schedules

def written (schedules : Schedules) (entries : List Entry) : Schedules :=
  entries.foldl Entry.write schedules

/-- The handler is there, and no step of the bookkeeping fails. -/
structure Attempt.Smooth (attempt : Attempt) : Prop where
  resolves : attempt.resolves = true
  created : attempt.created = .works
  started : attempt.started = .works
  finished : attempt.finished = .works
  found : attempt.found = .works
  updated : attempt.updated = .works
  completed : attempt.completed = .works
  finishedFailed : attempt.finishedFailed = .works
  failed : attempt.failed = .works
  updatedFailed : attempt.updatedFailed = .works
  deadLettered : attempt.deadLettered = .works

theorem write_terminal {schedules : Schedules} {row : ScheduleEntity} (now : Timestamp)
    (member : row ∈ schedules.rows) :
    ({ lastRunAt := some now, status := terminalStatusFor schedules row.id } : ScheduleUpdate).write
        row = row.completed now := by
  cases isLive : row.isLive with
  | true =>
      cases isType : row.type <;>
        simp [ScheduleUpdate.write, terminalStatusFor, Schedules.findById_of_mem member, isType,
          ScheduleEntity.completed, isLive]
  | false =>
      simp [ScheduleUpdate.write, terminalStatusFor, Schedules.findById_of_mem member,
        ScheduleEntity.completed, isLive]

/-- Where the bookkeeping works, an attempt writes what `recordAttempt` says. -/
theorem written_process (job : QueuedJob) (attemptsMade : Nat) (attempt : Attempt)
    (smooth : attempt.Smooth) :
    written attempt.rows (process job attemptsMade attempt).steps =
      recordAttempt attempt.rows job.data.scheduleId attempt.handled.isNone
        (attemptsMade + 1 < job.maxAttempts) (attempt.clock 3) := by
  have starts : attempt.starts = true := by
    simp [Attempt.starts, smooth.resolves, smooth.created, smooth.started, Outcome.error]
  rw [process_started starts]
  cases handled : attempt.handled with
  | none =>
      calc
        _ = attempt.rows.update job.data.scheduleId
            (ScheduleUpdate.write
              { lastRunAt := some (attempt.clock 3)
                status := terminalStatusFor attempt.rows job.data.scheduleId })
            fun _ => ⟨rfl, rfl⟩ := by
          simp [preparation, handlerCourse, completion, handled, smooth.created, smooth.started,
            smooth.finished, smooth.found, smooth.updated, smooth.completed, await, Course.andThen,
            Course.catching, written, Entry.write, Outcome.error]
        _ = attempt.rows.update job.data.scheduleId (.completed (attempt.clock 3))
            fun _ => ⟨rfl, rfl⟩ :=
          Schedules.update_congr fun row member isId => isId ▸ write_terminal _ member
        _ = _ := rfl
  | some error =>
      by_cases retries : attemptsMade + 1 < job.maxAttempts
      · simp [preparation, handlerCourse, failure, handled, smooth.created, smooth.started,
          smooth.finishedFailed, smooth.failed, await, Course.andThen, Course.catching, written,
          Entry.write, recordAttempt, retries, nothing, raise]
      · calc
          _ = attempt.rows.update job.data.scheduleId
              (ScheduleUpdate.write { lastRunAt := none, status := some .failed })
              fun _ => ⟨rfl, rfl⟩ := by
            simp [preparation, handlerCourse, failure, handled, smooth.created, smooth.started,
              smooth.finishedFailed, smooth.failed, smooth.updatedFailed, smooth.deadLettered,
              await, Course.andThen, Course.catching, written, Entry.write, retries,
              Course.ignoring, raise]
          _ = attempt.rows.update job.data.scheduleId .failed fun _ => ⟨rfl, rfl⟩ :=
            Schedules.update_congr fun _ _ _ => rfl
          _ = _ := by simp [recordAttempt, retries]

/-! A reminder that is sent, and whose `completed` event is lost. -/

def sentReminder (attempts : Nat) : QueuedJob :=
  { data :=
      { scheduleId := js "s", kind := js "remind", guildId := none, payload := .bool true
        scheduledFor := js "1970-01-01T00:00:00.000Z" }
    scheduledFor := 0
    attempts := some attempts }

def lostEvent : Attempt :=
  { resolves := true, runId := js "r", clock := fun _ => 0, traceId := fun _ => js "t"
    rows := .empty, handled := none, created := .works, started := .works, finished := .works
    found := .works, updated := .works
    completed := .fails false { code := js "Error", message := js "connection lost" }
    finishedFailed := .works, failed := .works, updatedFailed := .works, deadLettered := .works }

/-- With one attempt the job is dead-lettered, and with more it is sent again. -/
theorem lost_event_dead_letters_or_repeats :
    ¬ (∀ job script, Honoured (occurrence job script)) ∧
      (let entries := occurrence (sentReminder 1) fun _ => lostEvent
      (entries.filter Entry.isReturn).length = 1 ∧
        entries.any (fun entry => match entry with
          | .published event _ => event = .deadLettered
          | _ => false) = true) ∧
      let entries := occurrence (sentReminder 5) fun _ => lostEvent
      (entries.filter Entry.isReturn).length = 5 := by
  refine ⟨fun all => ?_, by decide +kernel, by decide +kernel⟩
  exact absurd (all (sentReminder 1) fun _ => lostEvent) (by decide +kernel)

end Scheduler
