import ArmstrongBot.Events.AsyncJob
import ArmstrongBot.Library.StepMachine
import ArmstrongBot.Library.Table
import Mathlib.Logic.Function.Basic

/-! `replayDeadLetter` and `discardDeadLetter` of `replay/event-replay.service.ts`, interleaved
statement by statement by any number of callers, over the table of dead letters. -/

namespace Events

open JsText JsJson StepMachine
open Calendar (Timestamp)

structure DeadLetterRecord extends DeadLetter where
  id : JsString
  createdAt : Timestamp
  replayedAt : Option Timestamp
  deletedAt : Option Timestamp
  deriving DecidableEq

abbrev DeadLetterTable := Table DeadLetterRecord.id

def DeadLetterStatus.text : DeadLetterStatus → JsString
  | .pending => js "pending"
  | .replayed => js "replayed"
  | .discarded => js "discarded"

inductive DeadLetterOperation
  | replay (requestedBy : JsString)
  | discard
  deriving DecidableEq

def DeadLetterOperation.status : DeadLetterOperation → DeadLetterStatus
  | .replay _ => .replayed
  | .discard => .discarded

structure DeadLetterRequest where
  id : JsString
  operation : DeadLetterOperation
  deriving DecidableEq

/-! `DeadLetterRepository`. -/

def DeadLetterTable.create (letters : DeadLetterTable) (id : JsString) (now : Timestamp)
    (letter : DeadLetter) : Option DeadLetterTable :=
  letters.insert { letter with id, createdAt := now, replayedAt := none, deletedAt := none }

def withDeadLetterStatus (status : DeadLetterStatus) (now : Timestamp) (row : DeadLetterRecord) :
    DeadLetterRecord :=
  { row with
    status
    replayedAt := if status = .replayed then some now else row.replayedAt
    deletedAt := if status = .discarded then some now else row.deletedAt }

def DeadLetterTable.updateStatus (letters : DeadLetterTable) (id : JsString)
    (status : DeadLetterStatus) (now : Timestamp) : Option DeadLetterTable :=
  letters.change id (withDeadLetterStatus status now) fun _ => rfl

/-! What the two operations read and publish. -/

def notFoundText (id : JsString) : JsString := js "DeadLetter " ++ id ++ js " not found"

def alreadyText (id : JsString) (status : DeadLetterStatus) : JsString :=
  js "DeadLetter " ++ id ++ js " is already " ++ status.text

/-- Only `replayDeadLetter` looks at the status of the record it has found. -/
def readRecord (letters : DeadLetterTable) (request : DeadLetterRequest) :
    Except JsString DeadLetterRecord :=
  match letters.find request.id with
  | none => .error (notFoundText request.id)
  | some record => match request.operation with
    | .replay _ =>
        if record.status = .pending then .ok record
        else .error (alreadyText request.id record.status)
    | .discard => .ok record

def replayOptions (record : DeadLetterRecord) (requestedBy : JsString) : PublishOptions :=
  { PublishOptions.empty with
    guildId := record.guildId
    actor := some { type := .system, id := requestedBy, username := none }
    causationId := some record.envelopeId }

/-- A replay has no idempotency key, so nothing suppresses it. -/
theorem replay_not_suppressed (record : DeadLetterRecord) (requestedBy id : JsString)
    (now : Timestamp) (context : CorrelationContext) (runtime : Runtime)
    (delivery : DeliveryPolicy) :
    let envelope := buildEnvelope id now context record.eventName record.payload
      (replayOptions record requestedBy)
    publish runtime envelope delivery = deliver runtime envelope delivery := by
  intro envelope
  have noKey : guardKey envelope = none := by
    rw [guardKey]
    split <;> rfl
  simp only [publish, noKey]

/-! The interleaved calls. -/

/-- How a call's publish ends: it may throw before the event has reached a handler or after. -/
inductive PublishOutcome
  | returns
  | throws (delivered : Bool)

def PublishOutcome.delivers : PublishOutcome → Bool
  | .returns => true
  | .throws delivered => delivered

inductive LetterPosition
  | idle
  | refused (error : JsString)
  | found (request : DeadLetterRequest) (record : DeadLetterRecord)
  | published (request : DeadLetterRequest)
  | ended (request : DeadLetterRequest) (delivered updated : Bool)

structure Redelivery where
  id : JsString
  name : JsString
  payload : Json
  options : PublishOptions

structure StatusMove where
  id : JsString
  before : DeadLetterStatus
  after : DeadLetterStatus
  deriving DecidableEq

/-- `redelivered` and `moves` record what has been published for the letters and written to their
status. -/
structure LetterCalls (ι : Type*) where
  letters : DeadLetterTable
  position : ι → LetterPosition
  redelivered : List Redelivery
  moves : List StatusMove

def LetterCalls.start (ι : Type*) : LetterCalls ι :=
  { letters := .empty, position := fun _ => .idle, redelivered := [], moves := [] }

/-- In `updateStatus` the database may take the update and the call may still throw. -/
inductive LetterAction (ι : Type*)
  | create (id : JsString) (now : Timestamp) (envelope : EventEnvelope) (handlerId : JsString)
      (attempts : Nat) (error : HandlerError)
  | findById (caller : ι) (request : DeadLetterRequest)
  | publish (caller : ι) (outcome : PublishOutcome)
  | updateStatus (caller : ι) (now : Timestamp) (took : Bool)

section

variable {ι : Type*} [DecidableEq ι]

def LetterCalls.moveTo (state : LetterCalls ι) (caller : ι) (position : LetterPosition) :
    LetterCalls ι :=
  { state with position := Function.update state.position caller position }

/-- The last statement of both operations. -/
def writeStatus (state : LetterCalls ι) (caller : ι) (request : DeadLetterRequest)
    (delivered : Bool) (now : Timestamp) (took : Bool) : Option (LetterCalls ι) :=
  match took, state.letters.find request.id,
    DeadLetterTable.updateStatus state.letters request.id request.operation.status now with
  | true, some row, some letters =>
      some { state.moveTo caller (.ended request delivered true) with
        letters
        moves := state.moves ++
          [{ id := request.id, before := row.status, after := request.operation.status }] }
  | _, _, _ => some (state.moveTo caller (.ended request delivered false))

def letterStep (state : LetterCalls ι) : LetterAction ι → Option (LetterCalls ι)
  | .create id now envelope handlerId attempts error =>
      (DeadLetterTable.create state.letters id now
        (deadLetterOf envelope handlerId attempts error)).map fun letters => { state with letters }
  | .findById caller request =>
      match state.position caller with
      | .idle => match readRecord state.letters request with
        | .ok record => some (state.moveTo caller (.found request record))
        | .error error => some (state.moveTo caller (.refused error))
      | _ => none
  | .publish caller outcome =>
      match state.position caller with
      | .found request record => match request.operation with
        | .replay requestedBy =>
            let redelivered := if outcome.delivers then
                state.redelivered ++ [{ id := request.id, name := record.eventName
                                        payload := record.payload
                                        options := replayOptions record requestedBy }]
              else state.redelivered
            match outcome with
            | .returns => some { state.moveTo caller (.published request) with redelivered }
            | .throws delivered => some { state.moveTo caller (.ended request delivered false) with
                redelivered }
        | .discard => none
      | _ => none
  | .updateStatus caller now took =>
      match state.position caller with
      | .published request => writeStatus state caller request true now took
      | .found request _ => match request.operation with
        | .replay _ => none
        | .discard => writeStatus state caller request false now took
      | _ => none

/-- A status changes from `pending` only, and no letter's event is published twice. -/
def SettledOnce (state : LetterCalls ι) : Prop :=
  (∀ move ∈ state.moves, move.before = move.after ∨ move.before = .pending) ∧
    ∀ id, (state.redelivered.filter fun redelivery => redelivery.id = id).length ≤ 1

/-! Where the other calls have to stand. -/

/-- The call has published the event of the letter, whether or not it got any further. -/
def LetterPosition.hasDelivered (id : JsString) : LetterPosition → Bool
  | .published request => request.id == id
  | .ended request delivered _ => request.id == id && delivered
  | _ => false

def LetterPosition.hasWritten (id : JsString) (status : DeadLetterStatus) : LetterPosition → Bool
  | .ended request _ updated => request.id == id && request.operation.status == status && updated
  | _ => false

def LetterPosition.request? : LetterPosition → Option DeadLetterRequest
  | .found request _ | .published request => some request
  | _ => none

/-- A call publishes only where no call has published the letter before it, and writes its status
only where no call of the other operation has written one. -/
def Alone (state : LetterCalls ι) : LetterAction ι → Prop
  | .publish caller outcome => outcome.delivers = true →
      ∀ request ∈ (state.position caller).request?, ∀ other,
        (state.position other).hasDelivered request.id = false
  | .updateStatus caller _ took => took = true →
      ∀ request ∈ (state.position caller).request?, ∀ other,
        ∀ status, status ≠ request.operation.status →
          (state.position other).hasWritten request.id status = false
  | _ => True

/-! What a step does. -/

omit [DecidableEq ι] in
theorem LetterPosition.not_hasWritten {position : LetterPosition} {request : DeadLetterRequest}
    (asked : position.request? = some request) (id : JsString) (status : DeadLetterStatus) :
    position.hasWritten id status = false := by
  cases position with
  | found | published => rfl
  | idle | refused | ended => simp [LetterPosition.request?] at asked

inductive LetterEffect (state : LetterCalls ι) : LetterAction ι → LetterCalls ι → Prop
  | created {id : JsString} {now : Timestamp} {envelope : EventEnvelope} {handlerId : JsString}
      {attempts : Nat} {error : HandlerError} {letters : DeadLetterTable} {row : DeadLetterRecord}
      (inserted : state.letters.insert row = some letters) (pending : row.status = .pending) :
      LetterEffect state (.create id now envelope handlerId attempts error) { state with letters }
  | looked {caller : ι} {request : DeadLetterRequest} {position : LetterPosition}
      (idle : state.position caller = .idle)
      (undelivered : ∀ id, position.hasDelivered id = false)
      (unwritten : ∀ id status, position.hasWritten id status = false) :
      LetterEffect state (.findById caller request) (state.moveTo caller position)
  | delivered {caller : ι} {request : DeadLetterRequest} {record : DeadLetterRecord}
      {outcome : PublishOutcome} {position : LetterPosition} {redelivery : Redelivery}
      (stands : state.position caller = .found request record) (delivers : outcome.delivers = true)
      (idEq : redelivery.id = request.id)
      (redelivered : ∀ id, position.hasDelivered id = (request.id == id))
      (unwritten : ∀ id status, position.hasWritten id status = false) :
      LetterEffect state (.publish caller outcome)
        { state.moveTo caller position with redelivered := state.redelivered ++ [redelivery] }
  | thrown {caller : ι} {request : DeadLetterRequest} {record : DeadLetterRecord}
      {outcome : PublishOutcome} (stands : state.position caller = .found request record)
      (delivers : outcome.delivers = false) :
      LetterEffect state (.publish caller outcome)
        (state.moveTo caller (.ended request false false))
  | missed {caller : ι} {request : DeadLetterRequest} {delivered took : Bool} {now : Timestamp}
      (asked : (state.position caller).request? = some request)
      (same : ∀ id, (state.position caller).hasDelivered id = (request.id == id && delivered))
      (absent : took = true → state.letters.find request.id = none) :
      LetterEffect state (.updateStatus caller now took)
        (state.moveTo caller (.ended request delivered false))
  | written {caller : ι} {request : DeadLetterRequest} {delivered : Bool} {now : Timestamp}
      {letters : DeadLetterTable} {row : DeadLetterRecord}
      (asked : (state.position caller).request? = some request)
      (same : ∀ id, (state.position caller).hasDelivered id = (request.id == id && delivered))
      (isRow : state.letters.find request.id = some row)
      (updated : DeadLetterTable.updateStatus state.letters request.id request.operation.status
        now = some letters) :
      LetterEffect state (.updateStatus caller now true)
        { state.moveTo caller (.ended request delivered true) with
          letters
          moves := state.moves ++
            [{ id := request.id, before := row.status, after := request.operation.status }] }

theorem writeStatus_effect {state next : LetterCalls ι} {caller : ι} {request : DeadLetterRequest}
    {delivered took : Bool} {now : Timestamp}
    (asked : (state.position caller).request? = some request)
    (same : ∀ id, (state.position caller).hasDelivered id = (request.id == id && delivered))
    (taken : writeStatus state caller request delivered now took = some next) :
    LetterEffect state (.updateStatus caller now took) next := by
  unfold writeStatus at taken
  split at taken
  · rename_i row letters found updated
    exact Option.some.inj taken ▸ .written asked same found updated
  · rename_i others
    refine Option.some.inj taken ▸ .missed asked same ?_
    rintro rfl
    cases found : state.letters.find request.id with
    | none => rfl
    | some row =>
        obtain ⟨letters, updated⟩ : ∃ letters, DeadLetterTable.updateStatus state.letters
            request.id request.operation.status now = some letters := by
          simp [DeadLetterTable.updateStatus, Table.change, found]
        exact absurd updated (others row letters rfl found)

theorem letterStep_effect {state next : LetterCalls ι} {action : LetterAction ι}
    (taken : letterStep state action = some next) : LetterEffect state action next := by
  cases action with
  | create id now envelope handlerId attempts error =>
      obtain ⟨letters, created, rfl⟩ := Option.map_eq_some_iff.mp taken
      exact .created created rfl
  | findById caller request =>
      simp only [letterStep] at taken
      split at taken
      · rename_i idle
        split at taken
        · exact Option.some.inj taken ▸ .looked idle (fun _ => rfl) fun _ _ => rfl
        · exact Option.some.inj taken ▸ .looked idle (fun _ => rfl) fun _ _ => rfl
      · simp at taken
  | publish caller outcome =>
      simp only [letterStep] at taken
      split at taken
      · rename_i request record stands
        split at taken
        · split at taken
          · exact Option.some.inj taken ▸ .delivered stands rfl rfl (fun _ => rfl) fun _ _ => rfl
          · rename_i delivered
            cases delivered with
            | true =>
                refine Option.some.inj taken ▸ .delivered stands rfl rfl ?_ ?_
                · intro id
                  simp [LetterPosition.hasDelivered]
                · intro id status
                  simp [LetterPosition.hasWritten]
            | false => exact Option.some.inj taken ▸ .thrown stands rfl
        · simp at taken
      · simp at taken
  | updateStatus caller now took =>
      simp only [letterStep] at taken
      split at taken
      · rename_i request stands
        refine writeStatus_effect ?_ ?_ taken
        · simp [stands, LetterPosition.request?]
        · simp [stands, LetterPosition.hasDelivered]
      · rename_i request record stands
        split at taken
        · simp at taken
        · refine writeStatus_effect ?_ ?_ taken
          · simp [stands, LetterPosition.request?]
          · simp [stands, LetterPosition.hasDelivered]
      · simp at taken

/-! The invariant: which calls have published a letter and which have written its status. -/

structure Traced (state : LetterCalls ι) : Prop where
  settled : SettledOnce state
  redelivered : ∀ id, (∃ redelivery ∈ state.redelivered, redelivery.id = id) ↔
    ∃ caller, (state.position caller).hasDelivered id = true
  statuses : ∀ row ∈ state.letters.rows, ∀ status,
    (∃ caller, (state.position caller).hasWritten row.id status = true) ↔
      row.status = status ∧ status ≠ .pending
  exist : ∀ caller id status, (state.position caller).hasWritten id status = true →
    state.letters.find id ≠ none

omit [DecidableEq ι] in
theorem traced_start : Traced (LetterCalls.start ι) := by
  refine ⟨⟨by simp [LetterCalls.start], by simp [LetterCalls.start]⟩, ?_, ?_, ?_⟩
  · simp [LetterCalls.start, LetterPosition.hasDelivered]
  · simp [LetterCalls.start, Table.empty]
  · simp [LetterCalls.start, LetterPosition.hasWritten]

theorem position_moveTo (state : LetterCalls ι) (caller other : ι) (position : LetterPosition) :
    (state.moveTo caller position).position other =
      if other = caller then position else state.position other := by
  simp [LetterCalls.moveTo, Function.update_apply]

/-- A move adds to the calls with a property at most the call that moves. -/
theorem exists_moveTo (state : LetterCalls ι) (caller : ι) (position : LetterPosition)
    (holds : LetterPosition → Bool)
    (keeps : holds (state.position caller) = true → holds position = true) :
    (∃ other, holds ((state.moveTo caller position).position other) = true) ↔
      holds position = true ∨ ∃ other, holds (state.position other) = true := by
  simp only [position_moveTo]
  constructor
  · rintro ⟨other, met⟩
    split at met
    · exact Or.inl met
    · exact Or.inr ⟨other, met⟩
  · rintro (met | ⟨other, met⟩)
    · exact ⟨caller, by simpa using met⟩
    · by_cases same : other = caller
      · subst same
        exact ⟨other, by simpa using keeps met⟩
      · exact ⟨other, by simpa [same] using met⟩

theorem Traced.moves {state : LetterCalls ι} (traced : Traced state) {caller : ι}
    {position : LetterPosition}
    (delivered : ∀ id, position.hasDelivered id = (state.position caller).hasDelivered id)
    (written : ∀ id status,
      position.hasWritten id status = (state.position caller).hasWritten id status) :
    Traced (state.moveTo caller position) := by
  have sameDelivered (id : JsString) :
      (∃ other, ((state.moveTo caller position).position other).hasDelivered id = true) ↔
        ∃ other, (state.position other).hasDelivered id = true := by
    rw [exists_moveTo state caller position (LetterPosition.hasDelivered id) (by simp [delivered]),
      delivered, or_iff_right_of_imp]
    exact fun met => ⟨caller, met⟩
  have sameWritten (id : JsString) (status : DeadLetterStatus) :
      (∃ other, ((state.moveTo caller position).position other).hasWritten id status = true) ↔
        ∃ other, (state.position other).hasWritten id status = true := by
    rw [exists_moveTo state caller position (LetterPosition.hasWritten id status)
      (by simp [written]), written, or_iff_right_of_imp]
    exact fun met => ⟨caller, met⟩
  refine ⟨traced.settled, ?_, ?_, ?_⟩
  · intro id
    rw [sameDelivered]
    exact traced.redelivered id
  · intro row member status
    rw [sameWritten]
    exact traced.statuses row member status
  · intro other id status met
    obtain ⟨writer, written⟩ := (sameWritten id status).mp ⟨other, met⟩
    exact traced.exist writer id status written

omit [DecidableEq ι] in
theorem Traced.creates {state : LetterCalls ι} (traced : Traced state) {letters : DeadLetterTable}
    {row : DeadLetterRecord} (inserted : state.letters.insert row = some letters)
    (pending : row.status = .pending) : Traced { state with letters } := by
  obtain ⟨fresh, rows⟩ := Table.insert_eq_some_iff.mp inserted
  refine ⟨traced.settled, traced.redelivered, ?_, ?_⟩
  · intro other member status
    simp only [rows, List.mem_append, List.mem_singleton] at member
    rcases member with earlier | rfl
    · exact traced.statuses other earlier status
    · constructor
      · rintro ⟨caller, written⟩
        exact absurd fresh (traced.exist caller _ status written)
      · rintro ⟨isStatus, settled⟩
        exact absurd (isStatus.symm.trans pending) settled
  · intro caller id status written
    have known := traced.exist caller id status written
    rw [Table.find_insert inserted]
    split
    · simp
    · exact known

omit [DecidableEq ι] in
theorem Traced.filter_nil {state : LetterCalls ι} (traced : Traced state) {id : JsString}
    (undelivered : ∀ caller, (state.position caller).hasDelivered id = false) :
    state.redelivered.filter (fun redelivery => redelivery.id = id) = [] := by
  rw [List.filter_eq_nil_iff]
  intro redelivery member same
  obtain ⟨caller, delivered⟩ :=
    (traced.redelivered id).mp ⟨redelivery, member, by simpa using same⟩
  rw [undelivered caller] at delivered
  exact absurd delivered (by decide)

theorem Traced.delivers {state : LetterCalls ι} (traced : Traced state) {caller : ι}
    {request : DeadLetterRequest} {record : DeadLetterRecord} {position : LetterPosition}
    {redelivery : Redelivery} (stands : state.position caller = .found request record)
    (idEq : redelivery.id = request.id)
    (delivered : ∀ id, position.hasDelivered id = (request.id == id))
    (unwritten : ∀ id status, position.hasWritten id status = false)
    (alone : ∀ other, (state.position other).hasDelivered request.id = false) :
    Traced { state.moveTo caller position with
      redelivered := state.redelivered ++ [redelivery] } := by
  have notWritten (id : JsString) (status : DeadLetterStatus) :
      (state.position caller).hasWritten id status = false := by rw [stands]; rfl
  have notDelivered (id : JsString) : (state.position caller).hasDelivered id = false := by
    rw [stands]
    rfl
  have moved (id : JsString) := exists_moveTo state caller position
    (LetterPosition.hasDelivered id) (by simp [notDelivered])
  have written (id : JsString) (status : DeadLetterStatus) :
      (∃ other, ((state.moveTo caller position).position other).hasWritten id status = true) ↔
        ∃ other, (state.position other).hasWritten id status = true := by
    rw [exists_moveTo state caller position (LetterPosition.hasWritten id status)
      (by simp [notWritten])]
    simp [unwritten]
  refine ⟨⟨traced.settled.1, ?_⟩, ?_, ?_, ?_⟩
  · intro id
    rw [List.filter_append]
    by_cases same : redelivery.id = id
    · have none : state.redelivered.filter (fun earlier => earlier.id = id) = [] :=
        traced.filter_nil (by rw [← same, idEq]; exact alone)
      simp [none, same]
    · simpa [same] using traced.settled.2 id
  · intro id
    rw [moved, delivered]
    simp only [List.mem_append, List.mem_singleton, or_and_right, exists_or, exists_eq_left,
      traced.redelivered id, idEq, beq_iff_eq]
    exact or_comm
  · intro row member status
    rw [written]
    exact traced.statuses row member status
  · intro other id status met
    obtain ⟨writer, earlier⟩ := (written id status).mp ⟨other, met⟩
    exact traced.exist writer id status earlier

theorem DeadLetterOperation.status_settled (operation : DeadLetterOperation) :
    operation.status ≠ .pending := by
  cases operation <;> simp [DeadLetterOperation.status]

omit [DecidableEq ι] in
theorem Traced.unsettled {state : LetterCalls ι} (traced : Traced state)
    {request : DeadLetterRequest} {row : DeadLetterRecord}
    (isRow : state.letters.find request.id = some row)
    (alone : ∀ other status, status ≠ request.operation.status →
      (state.position other).hasWritten request.id status = false) :
    row.status = request.operation.status ∨ row.status = .pending := by
  obtain ⟨member, idEq⟩ := Table.find_eq_some_iff.mp isRow
  by_cases pending : row.status = .pending
  · exact Or.inr pending
  · left
    obtain ⟨writer, written⟩ := (traced.statuses row member row.status).mpr ⟨rfl, pending⟩
    by_contra other
    rw [idEq, alone writer row.status other] at written
    exact absurd written (by decide)

theorem Traced.writes {state : LetterCalls ι} (traced : Traced state) {caller : ι}
    {request : DeadLetterRequest} {delivered : Bool} {now : Timestamp} {letters : DeadLetterTable}
    {row : DeadLetterRecord} (asked : (state.position caller).request? = some request)
    (same : ∀ id, (state.position caller).hasDelivered id = (request.id == id && delivered))
    (isRow : state.letters.find request.id = some row)
    (updated : DeadLetterTable.updateStatus state.letters request.id request.operation.status
      now = some letters)
    (alone : ∀ other status, status ≠ request.operation.status →
      (state.position other).hasWritten request.id status = false) :
    Traced { state.moveTo caller (.ended request delivered true) with
      letters
      moves := state.moves ++
        [{ id := request.id, before := row.status, after := request.operation.status }] } := by
  have notWritten := LetterPosition.not_hasWritten asked
  have finds := (Table.find_change updated).2
  have written (id : JsString) (status : DeadLetterStatus) :
      (∃ other, ((state.moveTo caller (.ended request delivered true)).position other).hasWritten
          id status = true) ↔
        (request.id = id ∧ request.operation.status = status) ∨
          ∃ other, (state.position other).hasWritten id status = true := by
    rw [exists_moveTo state caller _ (LetterPosition.hasWritten id status) (by simp [notWritten])]
    simp [LetterPosition.hasWritten]
  refine ⟨⟨?_, traced.settled.2⟩, ?_, ?_, ?_⟩
  · intro move member
    rcases List.mem_append.mp member with earlier | newest
    · exact traced.settled.1 move earlier
    · rw [List.mem_singleton.mp newest]
      exact traced.unsettled isRow alone
  · intro id
    rw [exists_moveTo state caller (.ended request delivered true)
      (LetterPosition.hasDelivered id) (fun met => (same id).symm.trans met), or_iff_right_of_imp]
    · exact traced.redelivered id
    · exact fun met => ⟨caller, (same id).trans met⟩
  · intro later member status
    rw [written]
    have found := (finds later.id).symm.trans (Table.find_key member)
    obtain ⟨earlier, isEarlier, changed⟩ := Option.map_eq_some_iff.mp found
    obtain ⟨earlierMember, idEq⟩ := Table.find_eq_some_iff.mp isEarlier
    by_cases here : later.id = request.id
    · rw [if_pos here] at changed
      have isStatus : later.status = request.operation.status := by rw [← changed]; rfl
      rw [isStatus, here]
      constructor
      · rintro (⟨_, rfl⟩ | ⟨other, met⟩)
        · exact ⟨rfl, request.operation.status_settled⟩
        · by_cases agrees : status = request.operation.status
          · exact ⟨agrees.symm, agrees ▸ request.operation.status_settled⟩
          · rw [alone other status agrees] at met
            exact absurd met (by decide)
      · rintro ⟨isLater, _⟩
        exact Or.inl ⟨rfl, isLater⟩
    · rw [if_neg here] at changed
      rw [or_iff_right (fun both => here both.1.symm), ← changed]
      exact traced.statuses earlier earlierMember status
  · intro other id status met
    rw [finds id, Ne, Option.map_eq_none_iff]
    rcases (written id status).mp ⟨other, met⟩ with ⟨rfl, _⟩ | ⟨writer, earlier⟩
    · simp [isRow]
    · exact traced.exist writer id status earlier

theorem traced_step {state next : LetterCalls ι} {action : LetterAction ι} (traced : Traced state)
    (alone : Alone state action) (taken : letterStep state action = some next) : Traced next := by
  cases letterStep_effect taken with
  | created inserted pending => exact traced.creates inserted pending
  | looked idle undelivered unwritten =>
      refine traced.moves ?_ ?_
      · intro id
        rw [idle, undelivered]
        rfl
      · intro id status
        rw [idle, unwritten]
        rfl
  | delivered stands delivers idEq redelivered unwritten =>
      refine traced.delivers stands idEq redelivered unwritten ?_
      exact alone delivers _ (by rw [stands]; rfl)
  | thrown stands delivers =>
      refine traced.moves ?_ ?_
      · intro id
        rw [stands]
        simp [LetterPosition.hasDelivered]
      · intro id status
        rw [stands]
        simp [LetterPosition.hasWritten]
  | missed asked same absent =>
      refine traced.moves (fun id => (same id).symm) ?_
      intro id status
      rw [LetterPosition.not_hasWritten asked]
      simp [LetterPosition.hasWritten]
  | written asked same isRow updated =>
      exact traced.writes asked same isRow updated (alone rfl _ asked)

theorem alone_of_settled {state next : LetterCalls ι} {action : LetterAction ι}
    (traced : Traced state) (taken : letterStep state action = some next)
    (settled : SettledOnce next) : Alone state action := by
  cases letterStep_effect taken with
  | created | looked => trivial
  | @delivered caller request record outcome position redelivery stands delivers idEq =>
      intro _ asked isAsked other
      obtain rfl : request = asked := by simpa [stands, LetterPosition.request?] using isAsked
      by_contra met
      obtain ⟨earlier, member, sameId⟩ := (traced.redelivered request.id).mpr
        ⟨other, by simpa using met⟩
      have once := settled.2 request.id
      simp only [List.filter_append, List.length_append] at once
      have first : earlier ∈ state.redelivered.filter fun redelivery =>
          redelivery.id = request.id := List.mem_filter.mpr ⟨member, by simpa using sameId⟩
      have some_ := List.length_pos_of_mem first
      have new : ([redelivery].filter fun redelivery => redelivery.id = request.id).length = 1 := by
        simp [idEq]
      omega
  | thrown stands delivers => exact fun met => absurd (delivers.symm.trans met) (by decide)
  | @missed caller request _ _ _ asked same absent =>
      intro took other isOther writer status apart
      obtain rfl : request = other := Option.some.inj (asked.symm.trans isOther)
      by_contra met
      exact traced.exist writer request.id status (by simpa using met) (absent took)
  | @written caller request _ _ _ row asked same isRow updated =>
      intro _ other isOther writer status apart
      obtain rfl : request = other := Option.some.inj (asked.symm.trans isOther)
      by_contra met
      obtain ⟨member, idEq⟩ := Table.find_eq_some_iff.mp isRow
      have isStatus := (traced.statuses row member status).mp
        ⟨writer, by rw [idEq]; simpa using met⟩
      have move := settled.1 { id := request.id, before := row.status
                               after := request.operation.status }
        (List.mem_append_right _ (List.mem_singleton.mpr rfl))
      rcases move with same_ | pending
      · exact apart (isStatus.1.symm.trans same_)
      · exact isStatus.2 (isStatus.1.symm.trans pending)

end

/-! Two replays of a letter that both read it before either writes its status, and a discard of a
letter that a replay has settled. -/

def bannedLetter : LetterAction Bool :=
  .create (js "d1") 0
    (buildEnvelope (js "e1") 0 { correlationId := js "c", causationId := none }
      (js "moderation.ban.executed") .null .empty)
    (js "audit") 4 { name := js "Error", message := js "timeout", code := none }

def replayRequest : DeadLetterRequest := { id := js "d1", operation := .replay (js "api") }

def discardRequest : DeadLetterRequest := { id := js "d1", operation := .discard }

def crossedReplays : List (LetterAction Bool) :=
  [bannedLetter, .findById false replayRequest, .findById true replayRequest,
    .publish false .returns, .publish true .returns, .updateStatus false 1 true,
    .updateStatus true 1 true]

def discardedReplay : List (LetterAction Bool) :=
  [bannedLetter, .findById false replayRequest, .publish false .returns,
    .updateStatus false 1 true, .findById true discardRequest, .updateStatus true 2 true]

end Events
