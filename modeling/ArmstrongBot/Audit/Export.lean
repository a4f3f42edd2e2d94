import ArmstrongBot.Library.Csv
import ArmstrongBot.Audit.Entry
import Mathlib.Logic.Function.Basic

/-! The CSV export of `AuditExportWriter`. -/

namespace Audit

open JsText JsJson
open Calendar (Timestamp)

structure ExportedEntry where
  id : JsString
  scope : JsString
  guildId : Option JsString
  seq : JsString
  action : JsString
  source : JsString
  actorId : Option JsString
  actorType : JsString
  targetType : Option JsString
  targetId : Option JsString
  channelId : Option JsString
  correlationId : JsString
  causationId : Option JsString
  summary : JsString
  metadata : Record
  before : Option Record
  after : Option Record
  previousHash : Option JsString
  hash : JsString
  occurredAt : JsString
  createdAt : JsString
  deriving DecidableEq

def toWire (entry : AuditEntry) : ExportedEntry :=
  { id := entry.id
    scope := entry.scope.text
    guildId := entry.guildId
    seq := intText entry.seq
    action := entry.action
    source := entry.source.text
    actorId := entry.actorId
    actorType := entry.actorType.text
    targetType := entry.targetType
    targetId := entry.targetId
    channelId := entry.channelId
    correlationId := entry.correlationId
    causationId := entry.causationId
    summary := entry.summary
    metadata := entry.metadata
    before := entry.before
    after := entry.after
    previousHash := entry.previousHash
    hash := entry.hash
    occurredAt := Calendar.toISOString entry.occurredAt
    createdAt := Calendar.toISOString entry.createdAt }

/-- `keyof ExportedEntry` -/
inductive Column
  | id | scope | guildId | seq | action | source | actorId | actorType | targetType | targetId
  | channelId | correlationId | causationId | summary | metadata | before | after | previousHash
  | hash | occurredAt | createdAt
  deriving DecidableEq

def csvColumns : List Column :=
  [.id, .scope, .guildId, .seq, .action, .source, .actorId, .actorType, .targetType, .targetId,
   .channelId, .correlationId, .causationId, .summary, .metadata, .before, .after, .previousHash,
   .hash, .occurredAt, .createdAt]

def Column.name : Column → JsString
  | id => js "id"
  | scope => js "scope"
  | guildId => js "guildId"
  | seq => js "seq"
  | action => js "action"
  | source => js "source"
  | actorId => js "actorId"
  | actorType => js "actorType"
  | targetType => js "targetType"
  | targetId => js "targetId"
  | channelId => js "channelId"
  | correlationId => js "correlationId"
  | causationId => js "causationId"
  | summary => js "summary"
  | metadata => js "metadata"
  | before => js "before"
  | after => js "after"
  | previousHash => js "previousHash"
  | hash => js "hash"
  | occurredAt => js "occurredAt"
  | createdAt => js "createdAt"

inductive WireValue
  | null
  | text (value : JsString)
  | object (value : Record)
  deriving DecidableEq

def WireValue.ofText : Option JsString → WireValue
  | some value => text value
  | none => null

def WireValue.ofRecord : Option Record → WireValue
  | some value => object value
  | none => null

/-- `wire[col]` -/
def ExportedEntry.value (wire : ExportedEntry) : Column → WireValue
  | .id => .text wire.id
  | .scope => .text wire.scope
  | .guildId => .ofText wire.guildId
  | .seq => .text wire.seq
  | .action => .text wire.action
  | .source => .text wire.source
  | .actorId => .ofText wire.actorId
  | .actorType => .text wire.actorType
  | .targetType => .ofText wire.targetType
  | .targetId => .ofText wire.targetId
  | .channelId => .ofText wire.channelId
  | .correlationId => .text wire.correlationId
  | .causationId => .ofText wire.causationId
  | .summary => .text wire.summary
  | .metadata => .object wire.metadata
  | .before => .ofRecord wire.before
  | .after => .ofRecord wire.after
  | .previousHash => .ofText wire.previousHash
  | .hash => .text wire.hash
  | .occurredAt => .text wire.occurredAt
  | .createdAt => .text wire.createdAt

def csvMarks : Csv.Marks CodeUnit :=
  { quote := unit 34, comma := unit 44, cr := unit 13, lf := unit 10, distinct := by decide }

/-- What `csvCell` writes, before any quoting. -/
def WireValue.raw : WireValue → JsString
  | null => []
  | text value => value
  | object value => stringify value.json

def csvCell (value : WireValue) : JsString := Csv.cell csvMarks value.raw

/-- `cells.join(',')` and the end of the row. -/
def csvRow (cells : List JsString) : JsString := (js ",").intercalate cells ++ js "\n"

/-- The chunks of the export, one after the other. -/
def toCsv (entries : List AuditEntry) : JsString :=
  csvRow (csvColumns.map Column.name) ++
    entries.flatMap fun entry =>
      csvRow (csvColumns.map fun column => csvCell ((toWire entry).value column))

theorem csvRow_eq {texts : List JsString} (filled : texts ≠ []) :
    csvRow (texts.map (Csv.cell csvMarks)) = Csv.row csvMarks texts := by
  induction texts with
  | nil => exact absurd rfl filled
  | cons first rest ih =>
      cases rest with
      | nil =>
          rw [csvRow, List.map_singleton, List.intercalate_singleton]
          rfl
      | cons second rest =>
          rw [Csv.row, ← ih (List.cons_ne_nil _ _), csvRow, csvRow, List.map_cons, List.map_cons,
            List.intercalate_cons_cons, List.append_assoc, List.append_assoc]
          rfl

theorem toCsv_eq (entries : List AuditEntry) :
    toCsv entries = Csv.table csvMarks (csvColumns.map Column.name ::
      entries.map fun entry => csvColumns.map fun column => ((toWire entry).value column).raw) := by
  have header : csvColumns.map Column.name =
      (csvColumns.map Column.name).map (Csv.cell csvMarks) := by decide +kernel
  have rows : ∀ entry, csvRow (csvColumns.map fun column =>
      csvCell ((toWire entry).value column)) =
      Csv.row csvMarks (csvColumns.map fun column => ((toWire entry).value column).raw) := by
    intro entry
    rw [← csvRow_eq (by simp [csvColumns]), List.map_map]
    rfl
  rw [Csv.table, List.flatMap_cons, List.flatMap_map, toCsv, ← csvRow_eq (by simp [csvColumns]),
    ← header]
  exact congrArg _ (congrArg entries.flatMap (funext rows))

/-- No cell or row of the export runs into another, whatever the entries hold. -/
theorem read_toCsv (entries : List AuditEntry) :
    Csv.read csvMarks (toCsv entries) = some (csvColumns.map Column.name ::
      entries.map fun entry => csvColumns.map fun column => ((toWire entry).value column).raw) := by
  rw [toCsv_eq]
  refine Csv.read_table fun cells member => ?_
  rcases List.mem_cons.mp member with rfl | isRow
  · simp [csvColumns]
  · obtain ⟨entry, _, rfl⟩ := List.mem_map.mp isRow
    simp [csvColumns]

def Column.nullable : Column → Bool
  | guildId | actorId | targetType | targetId | channelId | causationId | before | after
  | previousHash => true
  | _ => false

def Column.holdsRecord : Column → Bool
  | metadata | before | after => true
  | _ => false

/-- `JSON.parse` of what `JSON.stringify` wrote. -/
noncomputable def parseRecord (text : JsString) : Option Record :=
  Function.partialInv (fun record : Record => stringify record.json) text

/-- A cell as its column has it: an empty one that may be `null` is. -/
noncomputable def cellValue (column : Column) (text : JsString) : WireValue :=
  if column.nullable ∧ text = [] then .null
  else if column.holdsRecord then .ofRecord (parseRecord text)
  else .text text

/-- The fields of each entry, row by row, as a reader of RFC 4180 finds them below the header. -/
noncomputable def readBack (text : JsString) : Option (List (List WireValue)) :=
  (Csv.read csvMarks text).map fun rows => rows.tail.map (csvColumns.zipWith cellValue)

theorem record_stringify_injective :
    Function.Injective fun record : Record => stringify record.json := by
  intro left right same
  have sameJson : left.json = right.json := stringify_injective same
  obtain ⟨leftFields, _⟩ := left
  obtain ⟨rightFields, _⟩ := right
  obtain rfl : leftFields = rightFields := by simpa [Record.json] using sameJson
  rfl

theorem parseRecord_stringify (record : Record) :
    parseRecord (stringify record.json) = some record :=
  Function.partialInv_left record_stringify_injective record

theorem stringify_record_ne_nil (record : Record) : stringify record.json ≠ [] := by
  obtain ⟨fields, _⟩ := record
  cases fields <;> simp [Record.json, stringify, js, encodeChar]

/-- The cell gives back its field, but for an empty text where `null` might stand. -/
def GivenBack (wire : ExportedEntry) (column : Column) : Prop :=
  cellValue column (wire.value column).raw = wire.value column ↔
    (column.nullable = true → wire.value column ≠ .text [])

variable {wire : ExportedEntry} {column : Column}

theorem givenBack_text {text : JsString} (isField : wire.value column = .text text)
    (required : column.nullable = false) (isText : column.holdsRecord = false) :
    GivenBack wire column := by
  simp [GivenBack, isField, cellValue, required, isText, WireValue.raw]

theorem givenBack_ofText {text : Option JsString} (isField : wire.value column = .ofText text)
    (nullable : column.nullable = true) (isText : column.holdsRecord = false) :
    GivenBack wire column := by
  rw [GivenBack, isField]
  cases text with
  | none => simp [cellValue, nullable, WireValue.ofText, WireValue.raw]
  | some text =>
      by_cases isEmpty : text = []
      · simp [cellValue, nullable, WireValue.ofText, WireValue.raw, isEmpty]
      · simp [cellValue, isText, WireValue.ofText, WireValue.raw, isEmpty]

theorem givenBack_object {record : Record} (isField : wire.value column = .object record)
    (holds : column.holdsRecord = true) : GivenBack wire column := by
  simp [GivenBack, isField, cellValue, WireValue.raw, stringify_record_ne_nil, holds,
    parseRecord_stringify, WireValue.ofRecord]

theorem givenBack_ofRecord {record : Option Record} (isField : wire.value column = .ofRecord record)
    (nullable : column.nullable = true) (holds : column.holdsRecord = true) :
    GivenBack wire column := by
  cases record with
  | none => simp [GivenBack, isField, cellValue, nullable, WireValue.ofRecord, WireValue.raw]
  | some record => exact givenBack_object isField holds

theorem givenBack (wire : ExportedEntry) (column : Column) : GivenBack wire column := by
  cases column with
  | guildId | actorId | targetType | targetId | channelId | causationId | previousHash =>
      exact givenBack_ofText rfl rfl rfl
  | metadata => exact givenBack_object rfl rfl
  | before | after => exact givenBack_ofRecord rfl rfl rfl
  | _ => exact givenBack_text rfl rfl rfl

/-- Reading the export gives back the fields of every entry just where no field that may be `null`
is the empty text. -/
theorem readBack_toCsv_iff (entries : List AuditEntry) :
    readBack (toCsv entries) =
        some (entries.map fun entry => csvColumns.map (toWire entry).value) ↔
      ∀ entry ∈ entries, ∀ column ∈ csvColumns,
        column.nullable = true → (toWire entry).value column ≠ .text [] := by
  have rows : readBack (toCsv entries) = some (entries.map fun entry =>
      csvColumns.map fun column => cellValue column ((toWire entry).value column).raw) := by
    rw [readBack, read_toCsv, Option.map_some, List.tail_cons, List.map_map]
    refine congrArg some (List.map_congr_left fun entry _ => ?_)
    rw [Function.comp_apply, List.zipWith_map_right, List.zipWith_self]
  rw [rows, Option.some.injEq, List.map_inj_left]
  refine forall_congr' fun entry => imp_congr_right fun _ => ?_
  rw [List.map_inj_left]
  exact forall_congr' fun column => imp_congr_right fun _ => givenBack (toWire entry) column

/-- The entry of a payload with an empty `channelId`, and of one without. -/
def closedIn (channelId : Option JsString) : AuditEntry :=
  { scope := .guild, guildId := some (js "g1"), action := js "tickets.ticket.closed"
    source := .command, actorId := some (js "u1"), actorType := .user
    targetType := some (js "ticket"), targetId := some (js "t1"), channelId
    correlationId := js "c1", causationId := none, summary := js "audit:actions.tickets.ticket.closed"
    metadata := Record.empty, before := none, after := none, occurredAt := 0, id := js "e1", seq := 1
    previousHash := none, hash := js "h1", createdAt := 0 }

/-- Two entries have one export and different fields: no reader gives back both. -/
theorem no_reader_of_empty_text :
    ¬ ∃ reader : JsString → List ExportedEntry,
      ∀ channelId ∈ [some [], none],
        reader (toCsv [closedIn channelId]) = [toWire (closedIn channelId)] := by
  rintro ⟨reader, gives⟩
  have empty := gives (some []) (by simp)
  have missing := gives none (by simp)
  have same : toCsv [closedIn (some [])] = toCsv [closedIn none] := by decide +kernel
  rw [same, missing] at empty
  exact absurd empty (by decide +kernel)

end Audit
