import ArmstrongBot.Events.AsyncJob
import ArmstrongBot.Library.Listing
import ArmstrongBot.Library.StepMachine

/-! `replayByFilter` of `replay/event-replay.service.ts` over the event log, which the bus also
writes the replayed events to. -/

namespace Events

open JsText JsJson StepMachine
open Calendar (Timestamp)

structure EventLogRecord where
  id : JsString
  envelopeId : JsString
  eventName : JsString
  guildId : Option JsString
  actorType : ActorType
  actorId : JsString
  payload : Json
  correlationId : JsString
  causationId : Option JsString
  version : Int
  delivery : DeliveryPolicy
  status : EventStatus
  occurredAt : Timestamp
  createdAt : Timestamp
  deletedAt : Option Timestamp
  deriving DecidableEq

structure ReplayFilter where
  eventName : Option JsString
  guildId : Option JsString
  correlationId : Option JsString
  start : Option Timestamp
  stop : Option Timestamp
  limit : Option Nat

/-! `EventLogRepository`. -/

/-- The row that `persist` creates; `new Date` reads back the time that the envelope has as a
text. -/
def logRecord (id : JsString) (now : Timestamp) (envelope : EventEnvelope)
    (delivery : DeliveryPolicy) : EventLogRecord :=
  { id, envelopeId := envelope.id, eventName := envelope.name, guildId := envelope.guildId
    actorType := envelope.actor.type, actorId := envelope.actor.id, payload := envelope.payload
    correlationId := envelope.correlationId, causationId := envelope.causationId
    version := envelope.version, delivery, status := .published, occurredAt := now
    createdAt := now, deletedAt := none }

/-- A text of the filter that is absent or empty selects every row. -/
def selectsText (wanted : Option JsString) (value : Option JsString) : Bool :=
  match wanted with
  | none => true
  | some text => text == [] || value == some text

def inWindow (filter : ReplayFilter) (time : Timestamp) : Bool :=
  filter.start.all (fun start => decide (start ≤ time)) &&
    filter.stop.all fun stop => decide (time ≤ stop)

/-- `buildWhere` for a filter without a status. -/
def buildWhere (filter : ReplayFilter) (record : EventLogRecord) : Bool :=
  record.deletedAt.isNone && selectsText filter.eventName (some record.eventName) &&
    selectsText filter.guildId record.guildId &&
    selectsText filter.correlationId (some record.correlationId) &&
    inWindow filter record.occurredAt

def maxBatch : Nat := 500

def pageSize (filter : ReplayFilter) : Nat := min (filter.limit.getD maxBatch) maxBatch

/-! What a replay publishes. -/

structure Publication where
  name : JsString
  payload : Json
  options : PublishOptions

def republish (requestedBy : JsString) (record : EventLogRecord) : Publication :=
  { name := record.eventName
    payload := record.payload
    options := { PublishOptions.empty with
      guildId := record.guildId
      actor := some { type := .system, id := requestedBy, username := none }
      correlationId := some record.correlationId
      causationId := some record.envelopeId
      deliveryOverride := some record.delivery } }

def replayCompleted (replayId requestedBy : JsString) (count : Nat) : Publication :=
  { name := js "events.replay.completed"
    payload := .obj [(js "replayId", .str replayId), (js "count", .num (.ofNat count)),
      (js "requestedBy", .str requestedBy)]
    options := { PublishOptions.empty with
      actor := some { type := .system, id := js "event-replay", username := none } } }

/-! The log, with the events of replays marked. -/

structure LoggedEvent where
  record : EventLogRecord
  original : Bool
  deriving DecidableEq

/-- What a publish draws from outside: the ids of its row and envelope, the time, and the
correlation context. -/
structure PublishStamp where
  rowId : JsString
  envelopeId : JsString
  now : Timestamp
  context : CorrelationContext

/-- The part of `publish` that writes to the log. -/
def logPublication (original : Bool) (log : List LoggedEvent) (stamp : PublishStamp)
    (publication : Publication) : List LoggedEvent :=
  let delivery := deliveryOf publication.name publication.options
  let envelope := buildEnvelope stamp.envelopeId stamp.now stamp.context publication.name
    publication.payload publication.options
  if delivery.usesAsync then
    log ++ [{ record := logRecord stamp.rowId stamp.now envelope delivery, original }]
  else log

/-- The loop over the rows that `list` returned, with the number of the next one. -/
def replayEach (requestedBy : JsString) (stamps : Nat → PublishStamp) :
    Nat → List LoggedEvent → List LoggedEvent → List LoggedEvent
  | _, log, [] => log
  | index, log, item :: rest =>
      replayEach requestedBy stamps (index + 1)
        (logPublication false log (stamps index) (republish requestedBy item.record)) rest

/-- What a replay has published, in order, and the events that it was asked for. -/
structure Replay where
  items : List LoggedEvent
  published : List Publication
  originals : List LoggedEvent

structure ReplayLog where
  log : List LoggedEvent
  replays : List Replay

def ReplayLog.start (records : List EventLogRecord) : ReplayLog :=
  { log := records.map fun record => { record, original := true }, replays := [] }

/-- A replay comes with the matching rows as the database lists them. -/
inductive ReplayAction
  | publish (stamp : PublishStamp) (publication : Publication)
  | replay (filter : ReplayFilter) (requestedBy replayId : JsString)
      (stamps : Nat → PublishStamp) (listed : List LoggedEvent)

def matching (log : List LoggedEvent) (filter : ReplayFilter) : List LoggedEvent :=
  log.filter fun event => buildWhere filter event.record

def originals (log : List LoggedEvent) (filter : ReplayFilter) : List LoggedEvent :=
  (matching log filter).filter LoggedEvent.original

def LoggedEvent.occurredAt (event : LoggedEvent) : Int := event.record.occurredAt

def replayStep (state : ReplayLog) : ReplayAction → Option ReplayLog
  | .publish stamp publication =>
      some { state with log := logPublication true state.log stamp publication }
  | .replay filter requestedBy replayId stamps listed =>
      if Listing.Descending LoggedEvent.occurredAt (matching state.log filter) listed then
        let items := listed.take (pageSize filter)
        let replayed := replayEach requestedBy stamps 0 state.log items
        some {
          log := logPublication false replayed (stamps items.length)
            (replayCompleted replayId requestedBy items.length)
          replays := state.replays ++ [{
            items
            published := items.map fun item => republish requestedBy item.record
            originals := originals state.log filter }] }
      else none

/-- A replay publishes the matching originals, each once, in the order in which they occurred. -/
def Replay.Faithful (replay : Replay) : Prop :=
  replay.items.Perm replay.originals ∧
    replay.items.Pairwise fun first second => first.occurredAt ≤ second.occurredAt

def AllFaithful (state : ReplayLog) : Prop := ∀ replay ∈ state.replays, replay.Faithful

/-- The newest matching rows, as many as a replay takes, are originals, no original is behind them,
and the originals all occurred at one time. -/
def Simultaneous (state : ReplayLog) : ReplayAction → Prop
  | .publish _ _ => True
  | .replay filter _ _ _ listed =>
      (∀ event ∈ listed.take (pageSize filter), event.original = true) ∧
        (∀ event ∈ listed.drop (pageSize filter), event.original = false) ∧
        ∀ first ∈ originals state.log filter, ∀ second ∈ originals state.log filter,
          first.occurredAt = second.occurredAt

theorem logPublication_completed (original : Bool) (log : List LoggedEvent) (stamp : PublishStamp)
    (replayId requestedBy : JsString) (count : Nat) :
    logPublication original log stamp (replayCompleted replayId requestedBy count) = log := rfl

/-- Nothing but its time keeps the row of a replayed event from a filter that its original met. -/
theorem buildWhere_republished {filter : ReplayFilter} {record : EventLogRecord}
    (selected : buildWhere filter record = true) (requestedBy rowId envelopeId : JsString)
    (now : Timestamp) (context : CorrelationContext) :
    buildWhere filter (logRecord rowId now (buildEnvelope envelopeId now context record.eventName
        record.payload (republish requestedBy record).options) record.delivery) =
      inWindow filter now := by
  simp only [buildWhere, Bool.and_eq_true] at selected
  obtain ⟨⟨⟨⟨_, named⟩, inGuild⟩, correlated⟩, _⟩ := selected
  simp [buildWhere, logRecord, buildEnvelope, republish, named, inGuild, correlated]

theorem faithful_iff {log listed : List LoggedEvent} {filter : ReplayFilter}
    (listing : Listing.Descending LoggedEvent.occurredAt (matching log filter) listed)
    (published : List Publication) :
    Replay.Faithful { items := listed.take (pageSize filter), published
                      originals := originals log filter } ↔
      (∀ event ∈ listed.take (pageSize filter), event.original = true) ∧
        (∀ event ∈ listed.drop (pageSize filter), event.original = false) ∧
        ∀ first ∈ originals log filter, ∀ second ∈ originals log filter,
          first.occurredAt = second.occurredAt := by
  have ordered := listing.ordered.sublist (List.take_sublist (pageSize filter) listed)
  rw [Replay.Faithful, originals, Listing.take_perm_filter_iff listing.perm LoggedEvent.original,
    Listing.ascending_iff ordered, and_assoc]
  refine and_congr_right fun kept => and_congr_right fun dropped => ?_
  have page := (Listing.take_perm_filter_iff listing.perm LoggedEvent.original
    (pageSize filter)).mpr ⟨kept, dropped⟩
  simp only [page.mem_iff]

/-- Along a run of publishes and replays over any log, every replay is faithful exactly when at
each of them the matching originals are simultaneous and the newest of the matching rows. -/
theorem allFaithful_always_iff (records : List EventLogRecord) (actions : List ReplayAction) :
    Always replayStep AllFaithful (ReplayLog.start records) actions ↔
      Guarded replayStep Simultaneous (ReplayLog.start records) actions := by
  have initial : AllFaithful (ReplayLog.start records) := by simp [AllFaithful, ReplayLog.start]
  refine always_iff_guarded replayStep (fun _ faithful => faithful) ?_ ?_ initial actions
  · intro state action next faithful met taken
    cases action with
    | publish stamp publication =>
        obtain rfl := Option.some.inj taken
        exact faithful
    | replay filter requestedBy replayId stamps listed =>
        simp only [replayStep, Option.ite_none_right_eq_some] at taken
        obtain ⟨listing, taken⟩ := taken
        obtain rfl := Option.some.inj taken
        intro replay member
        rcases List.mem_append.mp member with earlier | newest
        · exact faithful replay earlier
        · rw [List.mem_singleton.mp newest]
          exact (faithful_iff listing _).mpr met
  · intro state action next faithful taken later
    cases action with
    | publish stamp publication => trivial
    | replay filter requestedBy replayId stamps listed =>
        simp only [replayStep, Option.ite_none_right_eq_some] at taken
        obtain ⟨listing, taken⟩ := taken
        obtain rfl := Option.some.inj taken
        exact (faithful_iff listing _).mp
          (later _ (List.mem_append_right _ (List.mem_singleton.mpr rfl)))

/-! Two events, replayed newest first; and one event, replayed twice, the second time together with
the row that the first replay has logged. -/

def ticketRecord (id : JsString) (occurredAt : Timestamp) : EventLogRecord :=
  logRecord id occurredAt
    (buildEnvelope id occurredAt { correlationId := js "c", causationId := none }
      (js "tickets.ticket.opened") .null .empty) .async

def everything : ReplayFilter :=
  { eventName := none, guildId := none, correlationId := none, start := none, stop := none
    limit := none }

def replayStamp (_index : Nat) : PublishStamp :=
  { rowId := js "r", envelopeId := js "e", now := 2
    context := { correlationId := js "d", causationId := none } }

def replayedTicket : LoggedEvent :=
  { record := logRecord (js "r") 2 (buildEnvelope (js "e") 2 (replayStamp 0).context
      (js "tickets.ticket.opened") .null (republish (js "api") (ticketRecord (js "a") 0)).options)
      .async
    original := false }

def twoTickets : List ReplayAction :=
  [.replay everything (js "api") (js "x") replayStamp
    [⟨ticketRecord (js "b") 1, true⟩, ⟨ticketRecord (js "a") 0, true⟩]]

def ticketTwice : List ReplayAction :=
  [.replay everything (js "api") (js "x") replayStamp [⟨ticketRecord (js "a") 0, true⟩],
    .replay everything (js "api") (js "y") replayStamp
      [replayedTicket, ⟨ticketRecord (js "a") 0, true⟩]]

theorem twoTickets_reversed_ticketTwice_repeated :
    ¬ Always replayStep AllFaithful
        (ReplayLog.start [ticketRecord (js "a") 0, ticketRecord (js "b") 1]) twoTickets ∧
      ¬ Always replayStep AllFaithful (ReplayLog.start [ticketRecord (js "a") 0]) ticketTwice := by
  constructor
  · let check (state : ReplayLog) : Bool :=
      state.replays.all fun replay => decide
        (replay.items.Pairwise fun first second => first.occurredAt ≤ second.occurredAt)
    refine not_always _ check ?_ (by decide +kernel)
    intro state faithful
    simp only [check, List.all_eq_true, decide_eq_true_eq]
    exact fun replay member => (faithful replay member).2
  · let check (state : ReplayLog) : Bool :=
      state.replays.all fun replay => replay.items.length == replay.originals.length
    refine not_always _ check ?_ (by decide +kernel)
    intro state faithful
    simp only [check, List.all_eq_true, beq_iff_eq]
    exact fun replay member => (faithful replay member).1.length_eq

end Events
