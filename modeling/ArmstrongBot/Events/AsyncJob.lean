import ArmstrongBot.Events.Bus

/-! A job of the asynchronous dispatcher over all its attempts, with handlers that may fail. -/

namespace Events

open JsText JsJson

structure HandlerError where
  name : JsString
  message : JsString
  code : Option JsString
  deriving DecidableEq

inductive DeadLetterStatus
  | pending
  | replayed
  | discarded
  deriving DecidableEq

structure DeadLetter where
  envelopeId : JsString
  eventName : JsString
  guildId : Option JsString
  handlerId : JsString
  payload : Json
  attempts : Nat
  lastError : JsString
  errorCode : JsString
  status : DeadLetterStatus
  deriving DecidableEq

def deadLetterOf (envelope : EventEnvelope) (handlerId : JsString) (attempts : Nat)
    (error : HandlerError) : DeadLetter :=
  { envelopeId := envelope.id, eventName := envelope.name, guildId := envelope.guildId, handlerId
    payload := envelope.payload, attempts, lastError := error.message
    errorCode := error.code.getD error.name, status := .pending }

inductive EventStatus
  | published
  | dispatched
  | failed
  deriving DecidableEq

structure Call where
  attempt : Nat
  registration : Registration
  error : Option HandlerError
  deriving DecidableEq

/-- What the attempts of a job leave behind: each call of a handler with its outcome, the dead
letters with the handler each was written for, and the status of the event in the log. -/
structure Progress where
  calls : List Call
  deadLetters : List (Registration × DeadLetter)
  status : EventStatus

def willRetry (attemptsMade : Nat) : Bool := decide (attemptsMade < jobAttempts - 1)

section Job

/- `handler` says how a call in an attempt ends, `accepts` whether the table takes a row. -/
variable (handler : Nat → Registration → Option HandlerError) (accepts : DeadLetter → Bool)
  (envelope : EventEnvelope)

/-- A failure in the last attempt; where the row is refused the status is not written either. -/
def exhaust (attemptsMade : Nat) (registration : Registration) (error : HandlerError)
    (progress : Progress) : Progress :=
  let row := deadLetterOf envelope registration.options.handlerId attemptsMade error
  if accepts row then
    { progress with
      deadLetters := progress.deadLetters ++ [(registration, row)]
      status := .failed }
  else progress

/-- The loop of `processJob`, which returns, or throws at the first handler that fails. -/
def handleEach (attemptsMade : Nat) : List Registration → Progress → Progress × Bool
  | [], progress => ({ progress with status := .dispatched }, true)
  | registration :: rest, progress =>
      if ofGuild envelope registration then
        let outcome := handler attemptsMade registration
        let called : Progress :=
          { progress with
            calls := progress.calls ++ [{ attempt := attemptsMade, registration, error := outcome }] }
        match outcome with
        | none => handleEach attemptsMade rest called
        | some error =>
            if willRetry attemptsMade then (called, false)
            else (exhaust accepts envelope attemptsMade registration error called, false)
      else handleEach attemptsMade rest progress

def processJob (attemptsMade : Nat) (registrations : List Registration) (progress : Progress) :
    Progress × Bool :=
  let named := registrations.filter fun registration => registration.name == envelope.name
  if named = [] then (progress, true)
  else handleEach handler accepts envelope attemptsMade named progress

/-- The queue runs a job that threw again until its attempts are used up. -/
def runAttempts (registrations : List Registration) : Nat → Nat → Progress → Progress
  | 0, _, progress => progress
  | left + 1, attemptsMade, progress =>
      let outcome := processJob handler accepts envelope attemptsMade registrations progress
      if outcome.2 then outcome.1
      else runAttempts registrations left (attemptsMade + 1) outcome.1

def runJob (registrations : List Registration) : Progress :=
  runAttempts handler accepts envelope registrations jobAttempts 0
    { calls := [], deadLetters := [], status := .published }

end Job

def Completed (progress : Progress) (registration : Registration) : Prop :=
  ∃ call ∈ progress.calls, call.registration = registration ∧ call.error = none

def HasDeadLetter (envelope : EventEnvelope) (progress : Progress) (registration : Registration) :
    Prop :=
  ∃ entry ∈ progress.deadLetters, entry.1 = registration ∧ entry.2.envelopeId = envelope.id ∧
    entry.2.handlerId = registration.options.handlerId

def lastCall (progress : Progress) (registration : Registration) : Option Call :=
  progress.calls.reverse.find? fun call => call.registration == registration

/-- Every matching handler has completed or has a dead letter, and has one where its last call
failed. -/
def Accounted (envelope : EventEnvelope) (registrations : List Registration) (progress : Progress) :
    Prop :=
  ∀ registration ∈ registrations.filter (selects envelope),
    (Completed progress registration ∨ HasDeadLetter envelope progress registration) ∧
      ∀ call, lastCall progress registration = some call → call.error ≠ none →
        HasDeadLetter envelope progress registration

/-- In some attempt no matching handler fails, or in the last attempt the last matching handler
fails alone and the table takes its dead letter. -/
def Clears (handler : Nat → Registration → Option HandlerError) (accepts : DeadLetter → Bool)
    (envelope : EventEnvelope) (matching : List Registration) : Prop :=
  (∃ attempt < jobAttempts, ∀ registration ∈ matching, handler attempt registration = none) ∨
    ∃ front last error, matching = front ++ [last] ∧
      (∀ registration ∈ front, handler (jobAttempts - 1) registration = none) ∧
      handler (jobAttempts - 1) last = some error ∧
      accepts (deadLetterOf envelope last.options.handlerId (jobAttempts - 1) error) = true

/-! One attempt. -/

section Job

variable {handler : Nat → Registration → Option HandlerError} {accepts : DeadLetter → Bool}
  {envelope : EventEnvelope}

def succeeded (attempt : Nat) (registration : Registration) : Call :=
  { attempt, registration, error := none }

def lettersOf (accepts : DeadLetter → Bool) (envelope : EventEnvelope) (attempt : Nat)
    (registration : Registration) (error : HandlerError) : List (Registration × DeadLetter) :=
  let row := deadLetterOf envelope registration.options.handlerId attempt error
  if !willRetry attempt && accepts row then [(registration, row)] else []

/-- What an attempt adds: a successful call of every handler, or of those before the first that
fails, whose dead letter it writes if there is no further attempt. -/
inductive Attempt (handler : Nat → Registration → Option HandlerError) (accepts : DeadLetter → Bool)
    (envelope : EventEnvelope) (attempt : Nat) (matching : List Registration) (progress : Progress) :
    Progress → Bool → Prop
  | returned {next} : (∀ registration ∈ matching, handler attempt registration = none) →
      next.calls = progress.calls ++ matching.map (succeeded attempt) →
      next.deadLetters = progress.deadLetters →
      Attempt handler accepts envelope attempt matching progress next true
  | threw {next} (front : List Registration) (failing : Registration) (rest : List Registration)
      (error : HandlerError) : matching = front ++ failing :: rest →
      (∀ registration ∈ front, handler attempt registration = none) →
      handler attempt failing = some error →
      next.calls = progress.calls ++ front.map (succeeded attempt) ++
        [{ attempt, registration := failing, error := some error }] →
      next.deadLetters =
        progress.deadLetters ++ lettersOf accepts envelope attempt failing error →
      Attempt handler accepts envelope attempt matching progress next false

theorem exhaust_calls (attempt : Nat) (registration : Registration) (error : HandlerError)
    (progress : Progress) :
    (exhaust accepts envelope attempt registration error progress).calls = progress.calls := by
  simp only [exhaust]
  split <;> rfl

theorem exhaust_deadLetters {attempt : Nat} (last : willRetry attempt = false)
    (registration : Registration) (error : HandlerError) (progress : Progress) :
    (exhaust accepts envelope attempt registration error progress).deadLetters =
      progress.deadLetters ++ lettersOf accepts envelope attempt registration error := by
  simp only [exhaust, lettersOf, last]
  split
  · rename_i accepted
    simp [accepted]
  · rename_i refused
    simp [refused]

theorem handleEach_attempt (attempt : Nat) (registrations : List Registration)
    (progress : Progress) :
    Attempt handler accepts envelope attempt (registrations.filter (ofGuild envelope)) progress
      (handleEach handler accepts envelope attempt registrations progress).1
      (handleEach handler accepts envelope attempt registrations progress).2 := by
  induction registrations generalizing progress with
  | nil => exact .returned (by simp) (by simp [handleEach]) rfl
  | cons registration rest ih =>
      unfold handleEach
      by_cases matching : ofGuild envelope registration = true
      · rw [List.filter_cons_of_pos matching, if_pos matching]
        cases outcome : handler attempt registration with
        | none =>
            have later := ih { progress with
              calls := progress.calls ++ [{ attempt, registration, error := none }] }
            simp only
            generalize handleEach handler accepts envelope attempt rest _ = result at later ⊢
            obtain ⟨next, returns⟩ := result
            cases later with
            | returned all calls letters =>
                refine .returned ?_ ?_ letters
                · exact List.forall_mem_cons.mpr ⟨outcome, all⟩
                · rw [calls]
                  simp [succeeded]
            | threw front failing later error split before fails calls letters =>
                refine .threw (registration :: front) failing later error ?_ ?_ fails ?_ letters
                · rw [split]
                  rfl
                · exact List.forall_mem_cons.mpr ⟨outcome, before⟩
                · rw [calls]
                  simp [succeeded]
        | some error =>
            simp only
            cases again : willRetry attempt with
            | true =>
                refine .threw [] registration _ error rfl (by simp) outcome (by simp) ?_
                simp [lettersOf, again]
            | false =>
                refine .threw [] registration _ error rfl (by simp) outcome ?_ ?_
                · simp [exhaust_calls]
                · exact exhaust_deadLetters again registration error _
      · rw [List.filter_cons_of_neg matching, if_neg matching]
        exact ih progress

theorem processJob_attempt (attempt : Nat) (registrations : List Registration)
    (progress : Progress) :
    Attempt handler accepts envelope attempt (registrations.filter (selects envelope)) progress
      (processJob handler accepts envelope attempt registrations progress).1
      (processJob handler accepts envelope attempt registrations progress).2 := by
  have both : registrations.filter (selects envelope) =
      (registrations.filter fun registration => registration.name == envelope.name).filter
        (ofGuild envelope) := by
    rw [List.filter_filter]
    exact List.filter_congr fun _ _ => Bool.and_comm _ _
  rw [both, processJob]
  split
  · rename_i unnamed
    rw [unnamed]
    exact .returned (by simp) (by simp) rfl
  · exact handleEach_attempt attempt _ progress

/-! All attempts: until one of them returns, the last matching handler never completes. -/

def Succeeds (handler : Nat → Registration → Option HandlerError) (matching : List Registration)
    (attempt : Nat) : Prop :=
  ∀ registration ∈ matching, handler attempt registration = none

structure Behind (matching : List Registration) (progress : Progress) : Prop where
  noLetters : progress.deadLetters = []
  lastPending : ∀ last ∈ matching.getLast?, ¬ Completed progress last

/-- How a job ends: in an attempt that returns, or in the last attempt after all have thrown. -/
inductive Ended (handler : Nat → Registration → Option HandlerError) (accepts : DeadLetter → Bool)
    (envelope : EventEnvelope) (matching : List Registration) (first : Nat) (final : Progress) : Prop
  | returned (attempt : Nat) (earlier : List Call) : attempt < jobAttempts →
      Succeeds handler matching attempt →
      final.calls = earlier ++ matching.map (succeeded attempt) →
      Ended handler accepts envelope matching first final
  | exhausted (before : Progress) : Behind matching before →
      (∀ attempt, first ≤ attempt → attempt < jobAttempts → ¬ Succeeds handler matching attempt) →
      Attempt handler accepts envelope (jobAttempts - 1) matching before final false →
      Ended handler accepts envelope matching first final

theorem not_completed_append {progress next : Progress} {registration : Registration}
    {added : List Call} (pending : ¬ Completed progress registration)
    (calls : next.calls = progress.calls ++ added)
    (unsuccessful : ∀ call ∈ added, call.registration = registration → call.error ≠ none) :
    ¬ Completed next registration := by
  rintro ⟨call, member, about, success⟩
  rw [calls, List.mem_append] at member
  rcases member with earlier | new
  · exact pending ⟨call, earlier, about, success⟩
  · exact unsuccessful call new about success

theorem getLast?_not_front {front rest : List Registration} {failing last : Registration}
    (distinct : (front ++ failing :: rest).Nodup)
    (isLast : last ∈ (front ++ failing :: rest).getLast?) : last ∉ front := by
  rw [List.getLast?_append_of_ne_nil _ (List.cons_ne_nil _ _)] at isLast
  intro inFront
  exact (List.nodup_append.mp distinct).2.2 last inFront last (List.mem_of_getLast? isLast) rfl

theorem Attempt.pending {attempt : Nat} {matching : List Registration} {progress next : Progress}
    (distinct : matching.Nodup)
    (taken : Attempt handler accepts envelope attempt matching progress next false)
    {last : Registration} (isLast : last ∈ matching.getLast?) (pending : ¬ Completed progress last) :
    ¬ Completed next last := by
  cases taken with
  | threw front failing rest error split before fails calls letters =>
      rw [List.append_assoc] at calls
      apply not_completed_append pending calls
      subst split
      intro call member about
      rcases List.mem_append.mp member with ok | failed
      · obtain ⟨registration, inFront, rfl⟩ := List.mem_map.mp ok
        exact absurd (about ▸ inFront) (getLast?_not_front distinct isLast)
      · rw [List.mem_singleton.mp failed]
        simp

theorem Attempt.behind {attempt : Nat} {matching : List Registration} {progress next : Progress}
    (distinct : matching.Nodup)
    (taken : Attempt handler accepts envelope attempt matching progress next false)
    (again : willRetry attempt = true) (behind : Behind matching progress) :
    Behind matching next := by
  refine ⟨?_, fun last isLast => taken.pending distinct isLast (behind.lastPending last isLast)⟩
  cases taken with
  | threw front failing rest error split before fails calls letters =>
      rw [letters, behind.noLetters]
      simp [lettersOf, again]

theorem Attempt.throws {attempt : Nat} {matching : List Registration} {progress next : Progress}
    (taken : Attempt handler accepts envelope attempt matching progress next false) :
    ¬ Succeeds handler matching attempt := by
  cases taken with
  | threw front failing rest error split before fails calls letters =>
      intro all
      have success := all failing (by simp [split])
      rw [fails] at success
      exact absurd success (by simp)

theorem runAttempts_ended {registrations : List Registration}
    (distinct : (registrations.filter (selects envelope)).Nodup) (left attempt : Nat)
    (total : attempt + (left + 1) = jobAttempts) {progress : Progress}
    (behind : Behind (registrations.filter (selects envelope)) progress) :
    Ended handler accepts envelope (registrations.filter (selects envelope)) attempt
      (runAttempts handler accepts envelope registrations (left + 1) attempt progress) := by
  induction left generalizing attempt progress with
  | zero =>
      have taken : Attempt handler accepts envelope attempt _ progress _ _ :=
        processJob_attempt attempt registrations progress
      simp only [runAttempts, ite_self]
      generalize processJob handler accepts envelope attempt registrations progress = result
        at taken ⊢
      obtain ⟨next, returns⟩ := result
      obtain rfl : attempt = jobAttempts - 1 := by omega
      cases returns with
      | true =>
          cases taken with
          | returned all calls letters => exact .returned _ _ (by omega) all calls
      | false =>
          refine .exhausted progress behind ?_ taken
          intro later notBefore below
          obtain rfl : later = jobAttempts - 1 := by omega
          exact taken.throws
  | succ left ih =>
      have taken : Attempt handler accepts envelope attempt _ progress _ _ :=
        processJob_attempt attempt registrations progress
      rw [runAttempts]
      generalize processJob handler accepts envelope attempt registrations progress = result
        at taken ⊢
      obtain ⟨next, returns⟩ := result
      cases returns with
      | true =>
          cases taken with
          | returned all calls letters => exact .returned _ _ (by omega) all calls
      | false =>
          have again : willRetry attempt = true := decide_eq_true (by omega)
          simp only [Bool.false_eq_true, if_false]
          cases ih (attempt + 1) (by omega) (taken.behind distinct again behind) with
          | returned later earlier below all calls => exact .returned later earlier below all calls
          | exhausted before stillBehind none last =>
              refine .exhausted before stillBehind ?_ last
              intro later notBefore below
              rcases Nat.eq_or_lt_of_le notBefore with rfl | after
              · exact taken.throws
              · exact none later after below

theorem runJob_ended {registrations : List Registration}
    (distinct : (registrations.filter (selects envelope)).Nodup) :
    Ended handler accepts envelope (registrations.filter (selects envelope)) 0
      (runJob handler accepts envelope registrations) := by
  refine runAttempts_ended distinct (jobAttempts - 1) 0 (by decide) ⟨rfl, ?_⟩
  rintro last _ ⟨call, member, _⟩
  exact absurd member (by simp)

theorem runJob_calls {registrations : List Registration}
    (all : Succeeds handler (registrations.filter (selects envelope)) 0) :
    (runJob handler accepts envelope registrations).calls =
      (registrations.filter (selects envelope)).map (succeeded 0) := by
  have taken : Attempt handler accepts envelope 0 _ _ _ _ := processJob_attempt 0 registrations
    { calls := [], deadLetters := [], status := .published }
  rw [runJob, jobAttempts, runAttempts]
  generalize processJob handler accepts envelope 0 registrations _ = result at taken ⊢
  obtain ⟨next, returns⟩ := result
  cases returns with
  | true =>
      cases taken with
      | returned _ calls letters => exact calls
  | false => exact absurd all taken.throws

/-- Where no handler fails, the work on a job is the run of all its attempts. -/
theorem work_runJob {runtime : Runtime} {jobId : JsString}
    {job : JobQueue.Job JsString EventEnvelope}
    (found : JobQueue.withStatus runtime.queue jobId .waiting = some job)
    (accepts : DeadLetter → Bool) :
    (work runtime jobId).invocations = runtime.invocations ++
      (runJob (fun _ _ => none) accepts job.data runtime.registries.async).calls.map fun call =>
        (job.data.id, call.registration.subscription) := by
  rw [runJob_calls fun _ _ => rfl]
  simp [work, found, invoke, selected, succeeded]

/-! When the end of a job accounts for every matching handler. -/

theorem lastCall_succeeded {progress : Progress} {earlier later : List Call}
    {handlers : List Registration} {attempt : Nat}
    (calls : progress.calls = earlier ++ handlers.map (succeeded attempt) ++ later)
    {registration : Registration} (member : registration ∈ handlers)
    (others : ∀ call ∈ later, call.registration ≠ registration) {call : Call}
    (last : lastCall progress registration = some call) : call.error = none := by
  have notLater : later.reverse.find? (fun call => call.registration == registration) = none := by
    rw [List.find?_eq_none]
    intro call inLater
    simpa using others call (List.mem_reverse.mp inLater)
  rw [lastCall, calls, List.reverse_append, List.reverse_append, List.find?_append, notLater,
    Option.none_or, List.find?_append] at last
  cases found : (handlers.map (succeeded attempt)).reverse.find?
      fun call => call.registration == registration with
  | none =>
      have absent := List.find?_eq_none.mp found (succeeded attempt registration)
        (List.mem_reverse.mpr (List.mem_map.mpr ⟨registration, member, rfl⟩))
      simp [succeeded] at absent
  | some success =>
      rw [found] at last
      obtain rfl : success = call := by simpa using last
      obtain ⟨_, _, rfl⟩ :=
        List.mem_map.mp (List.mem_reverse.mp (List.mem_of_find?_eq_some found))
      rfl

theorem completed_succeeded {progress : Progress} {earlier later : List Call}
    {handlers : List Registration} {attempt : Nat}
    (calls : progress.calls = earlier ++ handlers.map (succeeded attempt) ++ later)
    {registration : Registration} (member : registration ∈ handlers) :
    Completed progress registration := by
  refine ⟨succeeded attempt registration, ?_, rfl, rfl⟩
  rw [calls]
  exact List.mem_append_left _
    (List.mem_append_right _ (List.mem_map.mpr ⟨registration, member, rfl⟩))

theorem rest_nil {front rest : List Registration} {failing : Registration}
    (distinct : (front ++ failing :: rest).Nodup)
    (isLast : failing ∈ (front ++ failing :: rest).getLast?) : rest = [] := by
  cases rest with
  | nil => rfl
  | cons next rest =>
      rw [List.getLast?_append_of_ne_nil _ (List.cons_ne_nil _ _), List.getLast?_cons_cons] at isLast
      have notAfter := (List.nodup_cons.mp (List.nodup_append.mp distinct).2.1).1
      exact absurd (List.mem_of_getLast? isLast) notAfter

theorem mem_lettersOf {attempt : Nat} {registration : Registration} {error : HandlerError}
    {entry : Registration × DeadLetter}
    (member : entry ∈ lettersOf accepts envelope attempt registration error) :
    entry.1 = registration ∧
      accepts (deadLetterOf envelope registration.options.handlerId attempt error) = true := by
  simp only [lettersOf] at member
  split at member
  · rename_i taken
    simp only [Bool.and_eq_true] at taken
    rw [List.mem_singleton.mp member]
    exact ⟨rfl, taken.2⟩
  · simp at member

theorem hasDeadLetter_of_accepted {progress : Progress} {attempt : Nat} {registration : Registration}
    {error : HandlerError} (last : willRetry attempt = false)
    (accepted : accepts (deadLetterOf envelope registration.options.handlerId attempt error) = true)
    (letters : progress.deadLetters = lettersOf accepts envelope attempt registration error) :
    HasDeadLetter envelope progress registration := by
  refine ⟨(registration, deadLetterOf envelope registration.options.handlerId attempt error), ?_,
    rfl, rfl, rfl⟩
  rw [letters]
  simp [lettersOf, last, accepted]

theorem Attempt.clears {matching : List Registration} {before final : Progress}
    (distinct : matching.Nodup) (behind : Behind matching before)
    (ended : Attempt handler accepts envelope (jobAttempts - 1) matching before final false)
    (accounted : ∀ registration ∈ matching,
      Completed final registration ∨ HasDeadLetter envelope final registration) :
    Clears handler accepts envelope matching := by
  have pending {last : Registration} (isLast : last ∈ matching.getLast?) : ¬ Completed final last :=
    ended.pending distinct isLast (behind.lastPending last isLast)
  cases ended with
  | threw front failing rest error split before fails calls letters =>
      obtain ⟨last, isLast⟩ : ∃ last, last ∈ matching.getLast? := by
        refine ⟨matching.getLast (by simp [split]), ?_⟩
        exact List.getLast?_eq_some_getLast _
      rcases accounted last (List.mem_of_getLast? isLast) with completed | ⟨entry, member, about, _⟩
      · exact absurd completed (pending isLast)
      · rw [letters, behind.noLetters, List.nil_append] at member
        obtain ⟨written, accepted⟩ := mem_lettersOf member
        obtain rfl : failing = last := written.symm.trans about
        subst split
        obtain rfl := rest_nil distinct isLast
        exact Or.inr ⟨front, failing, error, rfl, before, fails, accepted⟩

theorem Attempt.accounted {matching : List Registration} {before final : Progress}
    (distinct : matching.Nodup) (behind : Behind matching before)
    (ended : Attempt handler accepts envelope (jobAttempts - 1) matching before final false)
    {front : List Registration} {last : Registration} (isSplit : matching = front ++ [last])
    (others : ∀ registration ∈ front, handler (jobAttempts - 1) registration = none)
    (accepted : ∀ error, handler (jobAttempts - 1) last = some error →
      accepts (deadLetterOf envelope last.options.handlerId (jobAttempts - 1) error) = true)
    {registration : Registration} (member : registration ∈ matching) :
    (Completed final registration ∨ HasDeadLetter envelope final registration) ∧
      ∀ call, lastCall final registration = some call → call.error ≠ none →
        HasDeadLetter envelope final registration := by
  cases ended with
  | threw before failing rest error split success fails calls letters =>
      rw [behind.noLetters, List.nil_append] at letters
      have failingLast : failing = last := by
        have inMatching : failing ∈ front ++ [last] := by rw [← isSplit, split]; simp
        rcases List.mem_append.mp inMatching with inFront | isLast
        · rw [others failing inFront] at fails
          exact absurd fails (by simp)
        · exact List.mem_singleton.mp isLast
      subst failingLast
      have restNil : rest = [] := by
        subst split
        apply rest_nil distinct
        rw [isSplit]
        simp
      subst restNil
      have letter : HasDeadLetter envelope final failing :=
        hasDeadLetter_of_accepted (by decide) (accepted error fails) letters
      rw [split] at member distinct
      rcases List.mem_append.mp member with inFront | isFailing
      · refine ⟨Or.inl (completed_succeeded calls inFront), ?_⟩
        intro call found failed
        refine absurd (lastCall_succeeded calls inFront ?_ found) failed
        intro other isOther same
        rw [List.mem_singleton.mp isOther] at same
        exact (List.nodup_append.mp distinct).2.2 _ inFront failing (by simp) same.symm
      · rw [List.mem_singleton.mp isFailing]
        exact ⟨Or.inr letter, fun _ _ _ => letter⟩

end Job

/-- At its end a job has accounted for every matching handler exactly when in some attempt none of
them fails, or in the last attempt the last one fails alone and its dead letter is taken. -/
theorem accounted_iff (handler : Nat → Registration → Option HandlerError)
    (accepts : DeadLetter → Bool) (envelope : EventEnvelope) (registries : Registries) :
    Accounted envelope registries.async (runJob handler accepts envelope registries.async) ↔
      Clears handler accepts envelope (registries.async.filter (selects envelope)) := by
  have distinct : (registries.async.filter (selects envelope)).Nodup :=
    (List.Nodup.of_map _ registries.distinct).filter _
  unfold Accounted
  have ended : Ended handler accepts envelope _ 0 _ := runJob_ended distinct
  cases ended with
  | returned attempt earlier below all calls =>
      rw [← List.append_nil (earlier ++ _)] at calls
      refine ⟨fun _ => Or.inl ⟨attempt, below, all⟩, fun _ registration member => ?_⟩
      refine ⟨Or.inl (completed_succeeded calls member), ?_⟩
      intro call last failed
      exact absurd (lastCall_succeeded calls member (by simp) last) failed
  | exhausted before behind thrown ended =>
      constructor
      · intro accounted
        exact ended.clears distinct behind fun registration member => (accounted registration member).1
      · rintro (⟨attempt, below, all⟩ | ⟨front, last, error, split, others, fails, accepted⟩)
        · exact absurd all (thrown attempt (Nat.zero_le _) below)
        · intro registration member
          refine ended.accounted distinct behind split others ?_ member
          intro other alsoFails
          rw [fails] at alsoFails
          rwa [← Option.some.inj alsoFails]

def ticketHandlers : Registries :=
  let name := js "tickets.ticket.opened"
  let onOpened := subscribe .empty name
    { handlerId := js "tickets:onOpened", guildId := none, durable := false }
  subscribe onOpened name { handlerId := js "audit:onOpened", guildId := none, durable := false }

def ticketOpened : EventEnvelope :=
  buildEnvelope (js "e1") 0 { correlationId := js "c1", causationId := none }
    (js "tickets.ticket.opened") .null .empty

def failsFirst (_attempt : Nat) (registration : Registration) : Option HandlerError :=
  if registration.options.handlerId = js "tickets:onOpened" then
    some { name := js "Error", message := js "down", code := none }
  else none

/-- A handler that fails in every attempt keeps the one behind it from ever being called. -/
theorem failsFirst_starves_second :
    ¬ Accounted ticketOpened ticketHandlers.async
      (runJob failsFirst (fun _ => true) ticketOpened ticketHandlers.async) := by
  intro accounted
  have second := (accounted
    { subscription := 1, name := js "tickets.ticket.opened",
      options := { handlerId := js "audit:onOpened", guildId := none, durable := false } }
    (by decide +kernel)).1
  simp only [Completed, HasDeadLetter] at second
  revert second
  decide +kernel

end Events
