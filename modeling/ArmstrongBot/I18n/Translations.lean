import ArmstrongBot.Library.Calendar
import ArmstrongBot.Library.JsMethods
import ArmstrongBot.Library.Table

/-! The translations of the database and the bundles that the loader makes of them. -/

namespace I18n

open JsText
open Calendar (Timestamp)

structure TranslationRow where
  id : JsString
  guildId : Option JsString
  locale : JsString
  module : JsString
  ns : JsString
  key : JsString
  value : JsString
  updatedBy : Option JsString
  deletedAt : Option Timestamp
  deriving DecidableEq

abbrev Rows := Table TranslationRow.id

/-- The rows of one `findBundle`, and what the event of a change names: the global rows of a locale
and namespace, or those of a guild. -/
structure Source where
  guildId : Option JsString
  locale : JsString
  ns : JsString
  deriving DecidableEq

def TranslationRow.source (row : TranslationRow) : Source :=
  { guildId := row.guildId, locale := row.locale, ns := row.ns }

/-- `findBundle`; the rows come in the order in which they were made. -/
def findBundle (rows : Rows) (source : Source) : List TranslationRow :=
  rows.rows.filter fun row => row.source = source && row.deletedAt = none

/-- `load` of `DbBundleSource`. -/
def loadSource (rows : Rows) (source : Source) : Record JsString := fun key =>
  (Record.ofList TranslationRow.key (findBundle rows source) key).map TranslationRow.value

structure UpsertTranslation where
  guildId : Option JsString
  locale : JsString
  module : JsString
  ns : JsString
  key : JsString
  value : JsString
  updatedBy : Option JsString
  deriving DecidableEq

def UpsertTranslation.source (record : UpsertTranslation) : Source :=
  { guildId := record.guildId, locale := record.locale, ns := record.ns }

/-- The row stands for the same text, deleted or not. -/
def UpsertTranslation.names (record : UpsertTranslation) (row : TranslationRow) : Bool :=
  row.source = record.source && row.module = record.module && row.key = record.key

def TranslationRow.revalued (record : UpsertTranslation) (row : TranslationRow) : TranslationRow :=
  { row with value := record.value, updatedBy := record.updatedBy, deletedAt := none }

def TranslationRow.deleted (now : Timestamp) (row : TranslationRow) : TranslationRow :=
  { row with deletedAt := some now }

theorem revalued_id (record : UpsertTranslation) (row : TranslationRow) :
    (row.revalued record).id = row.id := rfl

theorem deleted_id (now : Timestamp) (row : TranslationRow) : (row.deleted now).id = row.id := rfl

/-- `upsert`, in which the unique index on the rows of a guild counts the deleted rows too. -/
def upsert (rows : Rows) (record : UpsertTranslation) (id : JsString) : Option Rows :=
  match rows.rows.find? fun row => record.names row && row.deletedAt = none with
  | some existing => rows.change existing.id (TranslationRow.revalued record) (revalued_id record)
  | none =>
      if record.guildId.isSome && rows.rows.any record.names then none
      else rows.insert
        { id, guildId := record.guildId, locale := record.locale, module := record.module
          ns := record.ns, key := record.key, value := record.value
          updatedBy := record.updatedBy, deletedAt := none }

/-- `remove` of the controller, with what its event names. -/
def softDelete (rows : Rows) (id : JsString) (now : Timestamp) : Option (Rows × Source) :=
  ((rows.find id).filter fun row => row.deletedAt = none).bind fun row =>
    (rows.change id (TranslationRow.deleted now) (deleted_id now)).map fun next =>
      (next, row.source)

inductive Change
  | upsert (record : UpsertTranslation) (id : JsString)
  | softDelete (id : JsString) (now : Timestamp)
  deriving DecidableEq

/-- The rows after a request that succeeds, and what its event names. -/
def Change.apply (rows : Rows) : Change → Option (Rows × Source)
  | .upsert record id => (I18n.upsert rows record id).map fun next => (next, record.source)
  | .softDelete id now => I18n.softDelete rows id now

/-! A change leaves every other source as it is. -/

variable {rows next : Rows} {source other : Source}

theorem findBundle_change {id : JsString} {row : TranslationRow}
    {change : TranslationRow → TranslationRow} {sameId : ∀ row, (change row).id = row.id}
    (changed : rows.change id change sameId = some next) (found : rows.find id = some row)
    (sameSource : ∀ row, (change row).source = row.source) (apart : other ≠ row.source) :
    findBundle next other = findBundle rows other := by
  obtain ⟨_, _, rfl⟩ := Option.map_eq_some_iff.mp changed
  have isRow : ∀ member ∈ rows.rows, member.id = id → member = row := by
    intro member isMember isId
    have isFound := Table.find_key isMember
    rw [isId, found] at isFound
    exact (Option.some.inj isFound).symm
  simp only [findBundle, Table.update]
  revert isRow
  generalize rows.rows = members
  intro isRow
  induction members with
  | nil => rfl
  | cons first rest ih =>
      have later := ih fun member isMember => isRow member (List.mem_cons_of_mem _ isMember)
      rw [List.map_cons, List.filter_cons, List.filter_cons, later]
      by_cases isId : first.id = id
      · obtain rfl := isRow first List.mem_cons_self isId
        simp [isId, sameSource, Ne.symm apart]
      · simp [isId]

theorem findBundle_insert {row : TranslationRow} (inserted : rows.insert row = some next)
    (apart : other ≠ row.source) : findBundle next other = findBundle rows other := by
  rw [findBundle, (Table.insert_eq_some_iff.mp inserted).2, List.filter_append]
  simp [findBundle, Ne.symm apart]

theorem findBundle_apply {change : Change} (applied : change.apply rows = some (next, source))
    (apart : other ≠ source) : findBundle next other = findBundle rows other := by
  cases change with
  | upsert record id =>
      obtain ⟨after, upserted, same⟩ := Option.map_eq_some_iff.mp applied
      obtain ⟨rfl, rfl⟩ := Prod.mk.inj same
      unfold upsert at upserted
      split at upserted
      · rename_i existing isExisting
        have found := Table.find_key (List.mem_of_find?_eq_some isExisting)
        have named := List.find?_some isExisting
        simp only [UpsertTranslation.names, Bool.and_eq_true, decide_eq_true_eq] at named
        refine findBundle_change upserted found (fun _ => rfl) ?_
        rw [named.1.1.1]
        exact apart
      · split at upserted
        · cases upserted
        · exact findBundle_insert upserted apart
  | softDelete id now =>
      obtain ⟨row, isRow, deleted⟩ := Option.bind_eq_some_iff.mp applied
      obtain ⟨after, changed, same⟩ := Option.map_eq_some_iff.mp deleted
      obtain ⟨rfl, rfl⟩ := Prod.mk.inj same
      exact findBundle_change changed (Option.filter_eq_some_iff.mp isRow).1 (fun _ => rfl) apart

theorem loadSource_apply {change : Change} (applied : change.apply rows = some (next, source))
    (apart : other ≠ source) : loadSource next other = loadSource rows other := by
  funext key
  rw [loadSource, loadSource, findBundle_apply applied apart]

end I18n
