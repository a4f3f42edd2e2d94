import ArmstrongBot.I18n.Translations
import ArmstrongBot.Library.StepMachine

/-! The overrides of the database under requests that run side by side. An upsert looks for a live
row and then, in a statement of its own, updates the row it has found or creates one. Every guild
that an override names is there. -/

namespace I18n

open JsText StepMachine
open Calendar (Timestamp)

def UpsertTranslation.stands (record : UpsertTranslation) (row : TranslationRow) : Bool :=
  record.names row && row.deletedAt = none

/-- What `findFirst` may return; of several live rows it may return any. -/
def finds (rows : Rows) (record : UpsertTranslation) : Option JsString → Bool
  | some id => rows.rows.any fun row => row.id = id && record.stands row
  | none => !rows.rows.any record.stands

def UpsertTranslation.created (record : UpsertTranslation) (id : JsString) : TranslationRow :=
  { id, guildId := record.guildId, locale := record.locale, module := record.module
    ns := record.ns, key := record.key, value := record.value, updatedBy := record.updatedBy
    deletedAt := none }

/-- The second statement of `upsert`. The unique index counts deleted rows and takes no two global
rows for equal. -/
def write (rows : Rows) (record : UpsertTranslation) (existing : Option JsString) (id : JsString) :
    Option Rows :=
  match existing with
  | some existing => rows.change existing (TranslationRow.revalued record) (revalued_id record)
  | none =>
      if record.guildId.isSome && rows.rows.any record.names then none
      else rows.insert (record.created id)

/-- An upsert that nothing comes between is the two statements in turn. -/
theorem upsert_eq_write (rows : Rows) (record : UpsertTranslation) (id : JsString) :
    ∃ existing, finds rows record existing = true ∧
      upsert rows record id = write rows record existing id := by
  cases found : rows.rows.find? fun row => record.names row && row.deletedAt = none with
  | some row =>
      refine ⟨some row.id, ?_, by simp only [upsert, found, write]⟩
      refine List.any_eq_true.mpr ⟨row, List.mem_of_find?_eq_some found, ?_⟩
      have stands : record.stands row = true := List.find?_some found
      simp [stands]
  | none =>
      refine ⟨none, ?_, by simp only [upsert, found, write]; rfl⟩
      have none := List.find?_eq_none.mp found
      simpa [finds, UpsertTranslation.stands] using none

/-- The upserts under way, with what each has found, and those that have ended: the rows that each
has left, none where it threw. -/
structure Overrides where
  rows : Rows
  underWay : List (UpsertTranslation × Option JsString)
  ended : List (UpsertTranslation × Option Rows)

def Overrides.start : Overrides := { rows := .empty, underWay := [], ended := [] }

inductive Request
  | find (record : UpsertTranslation) (existing : Option JsString)
  | write (upsert : Nat) (id : JsString)
  | softDelete (id : JsString) (now : Timestamp)
  | softDeleteByGuild (guildId : JsString) (now : Timestamp)
  deriving DecidableEq

def ofGuild (guildId : JsString) (row : TranslationRow) : Bool :=
  row.guildId = some guildId && row.deletedAt = none

/-- `updateMany` of the rows that go. -/
def deleteMany (rows : Rows) (selects : TranslationRow → Bool) (now : Timestamp) : Rows :=
  rows.update selects (TranslationRow.deleted now) (deleted_id now)

/-- A new row gets an id that no row has. -/
def perform (state : Overrides) : Request → Option Overrides
  | .find record existing =>
      if finds state.rows record existing then
        some { state with underWay := state.underWay ++ [(record, existing)] }
      else none
  | .write index id =>
      match state.underWay[index]? with
      | none => none
      | some (record, existing) =>
          if (state.rows.find id).isSome then none
          else
            let left := write state.rows record existing id
            some { rows := left.getD state.rows, underWay := state.underWay.eraseIdx index
                   ended := state.ended ++ [(record, left)] }
  | .softDelete id now =>
      (state.rows.change id (TranslationRow.deleted now) (deleted_id now)).map fun rows =>
        { state with rows }
  | .softDeleteByGuild guildId now =>
      some { state with rows := deleteMany state.rows (ofGuild guildId) now }

/-- One live row stands for the text, with the value. -/
def Settled (rows : Rows) (record : UpsertTranslation) : Prop :=
  ∃ row ∈ rows.rows, record.stands row = true ∧ row.value = record.value ∧
    ∀ other ∈ rows.rows, record.stands other = true → other = row

/-- Every upsert that has ended, and a further one of any text, succeeds and settles it. -/
structure Upserts (state : Overrides) : Prop where
  ended : ∀ entry ∈ state.ended, ∃ rows ∈ entry.2, Settled rows entry.1
  further : ∀ record existing id, finds state.rows record existing = true →
    state.rows.find id = none → ∃ rows ∈ write state.rows record existing id, Settled rows record

/-- No row of a guild is deleted, and an upsert writes where no other live row stands for its text. -/
def Unhindered (state : Overrides) : Request → Prop
  | .find _ _ => True
  | .write index _ => ∀ upsert ∈ state.underWay[index]?, ∀ row ∈ state.rows.rows,
      upsert.1.stands row = true → upsert.2 = some row.id
  | .softDelete id _ => ∀ row ∈ state.rows.find id, row.guildId = none
  | .softDeleteByGuild guildId _ => ∀ row ∈ state.rows.rows, ofGuild guildId row = false

/-! One statement. -/

theorem names_iff {record : UpsertTranslation} {row : TranslationRow} :
    record.names row = true ↔
      row.source = record.source ∧ row.module = record.module ∧ row.key = record.key := by
  simp only [UpsertTranslation.names, Bool.and_eq_true, decide_eq_true_eq, and_assoc]

theorem stands_iff {record : UpsertTranslation} {row : TranslationRow} :
    record.stands row = true ↔ record.names row = true ∧ row.deletedAt = none := by
  simp only [UpsertTranslation.stands, Bool.and_eq_true, decide_eq_true_eq]

/-- Records that stand for one row stand for the same rows. -/
theorem names_trans {first second : UpsertTranslation} {row other : TranslationRow}
    (firstNames : first.names row = true) (secondNames : second.names row = true)
    (names : second.names other = true) : first.names other = true := by
  rw [names_iff] at *
  obtain ⟨source, module, key⟩ := firstNames
  obtain ⟨sameSource, sameModule, sameKey⟩ := secondNames
  obtain ⟨otherSource, otherModule, otherKey⟩ := names
  refine ⟨?_, ?_, ?_⟩
  · rw [otherSource, ← sameSource, source]
  · rw [otherModule, ← sameModule, module]
  · rw [otherKey, ← sameKey, key]

theorem guildId_of_names {record : UpsertTranslation} {row : TranslationRow}
    (names : record.names row = true) : row.guildId = record.guildId :=
  congrArg Source.guildId (names_iff.mp names).1

theorem stands_created (record : UpsertTranslation) (id : JsString) :
    record.stands (record.created id) = true :=
  stands_iff.mpr ⟨names_iff.mpr ⟨rfl, rfl, rfl⟩, rfl⟩

theorem row_eq_of_id {rows : Rows} {row other : TranslationRow} (member : row ∈ rows.rows)
    (otherMember : other ∈ rows.rows) (same : row.id = other.id) : row = other :=
  List.inj_on_of_nodup_map rows.distinct member otherMember same

/-- Every row is live that belongs to a guild, and no two live rows stand for one text. -/
structure Kept (rows : Rows) : Prop where
  alive : ∀ row ∈ rows.rows, row.guildId.isSome = true → row.deletedAt = none
  single : ∀ record : UpsertTranslation, ∀ row ∈ rows.rows, ∀ other ∈ rows.rows,
    record.stands row = true → record.stands other = true → other = row

section Write

variable {rows : Rows} {record : UpsertTranslation}

theorem update_settles (kept : Kept rows) {row : TranslationRow} (member : row ∈ rows.rows)
    (names : record.names row = true)
    (alone : ∀ other ∈ rows.rows, record.stands other = true → row.id = other.id) :
    ∃ next ∈ rows.change row.id (TranslationRow.revalued record) (revalued_id record),
      Settled next record ∧ Kept next ∧
        ∀ other ∈ rows.rows, ∃ later ∈ next.rows, later.id = other.id ∧
          ∀ asked : UpsertTranslation, asked.names later = asked.names other := by
  let next := rows.update (fun other => other.id = row.id) (TranslationRow.revalued record)
    (revalued_id record)
  have changed : rows.change row.id (TranslationRow.revalued record) (revalued_id record) =
      some next := by
    rw [Table.change, Table.find_key member]
    rfl
  have mem_next (other : TranslationRow) : other ∈ next.rows ↔
      other = row.revalued record ∨ other ∈ rows.rows ∧ other.id ≠ row.id := by
    rw [Table.mem_update]
    constructor
    · rintro ⟨before, isBefore, rfl⟩
      by_cases same : before.id = row.id
      · rw [row_eq_of_id isBefore member same]
        simp
      · exact .inr ⟨by simpa [same] using isBefore, by simp [same]⟩
    · rintro (rfl | ⟨before, apart⟩)
      · exact ⟨row, member, by simp⟩
      · exact ⟨other, before, by simp [apart]⟩
  have notAlone (asked : UpsertTranslation) (asksRow : asked.names row = true)
      {other : TranslationRow} (isOther : other ∈ rows.rows) (apart : other.id ≠ row.id)
      (stands : asked.stands other = true) : False := by
    obtain ⟨asksOther, live⟩ := stands_iff.mp stands
    have recordStands : record.stands other = true :=
      stands_iff.mpr ⟨names_trans names asksRow asksOther, live⟩
    exact apart (alone other isOther recordStands).symm
  refine ⟨next, changed, ⟨row.revalued record, (mem_next _).mpr (.inl rfl), ?_, rfl, ?_⟩, ⟨?_, ?_⟩, ?_⟩
  · exact stands_iff.mpr ⟨names, rfl⟩
  · intro other isOther stands
    rcases (mem_next other).mp isOther with rfl | ⟨before, apart⟩
    · rfl
    · exact (notAlone record names before apart stands).elim
  · intro other isOther ofGuild
    rcases (mem_next other).mp isOther with rfl | ⟨before, _⟩
    · rfl
    · exact kept.alive other before ofGuild
  · intro asked first isFirst second isSecond firstStands secondStands
    rcases (mem_next first).mp isFirst with rfl | ⟨firstBefore, firstApart⟩
    · rcases (mem_next second).mp isSecond with rfl | ⟨secondBefore, secondApart⟩
      · rfl
      · exact (notAlone asked (stands_iff.mp firstStands).1 secondBefore secondApart
          secondStands).elim
    · rcases (mem_next second).mp isSecond with rfl | ⟨secondBefore, _⟩
      · exact (notAlone asked (stands_iff.mp secondStands).1 firstBefore firstApart
          firstStands).elim
      · exact kept.single asked first firstBefore second secondBefore firstStands secondStands
  · intro other before
    by_cases same : other.id = row.id
    · refine ⟨row.revalued record, (mem_next _).mpr (.inl rfl), same.symm, fun asked => ?_⟩
      rw [row_eq_of_id before member same]
      rfl
    · exact ⟨other, (mem_next other).mpr (.inr ⟨before, same⟩), rfl, fun _ => rfl⟩

theorem create_settles (kept : Kept rows) {id : JsString} (fresh : rows.find id = none)
    (alone : ∀ other ∈ rows.rows, record.stands other = false) :
    ∃ next ∈ write rows record none id, Settled next record ∧ Kept next ∧
      ∀ other ∈ rows.rows, other ∈ next.rows := by
  have free : (record.guildId.isSome && rows.rows.any record.names) = false := by
    by_contra taken
    rw [Bool.not_eq_false, Bool.and_eq_true, List.any_eq_true] at taken
    obtain ⟨ofGuild, row, member, names⟩ := taken
    have live := kept.alive row member (by rwa [guildId_of_names names])
    have stands := alone row member
    rw [stands_iff.mpr ⟨names, live⟩] at stands
    cases stands
  obtain ⟨next, inserted⟩ := Table.exists_insert (record.created id) fresh
  have mem_next (other : TranslationRow) :
      other ∈ next.rows ↔ other ∈ rows.rows ∨ other = record.created id := Table.mem_insert inserted
  have notAlone (asked : UpsertTranslation) (asksNew : asked.names (record.created id) = true)
      {other : TranslationRow} (before : other ∈ rows.rows) (stands : asked.stands other = true) :
      False := by
    obtain ⟨asksOther, live⟩ := stands_iff.mp stands
    have names := names_trans (stands_iff.mp (stands_created record id)).1 asksNew asksOther
    have standing := alone other before
    rw [stands_iff.mpr ⟨names, live⟩] at standing
    cases standing
  refine ⟨next, ?_, ⟨record.created id, (mem_next _).mpr (.inr rfl), stands_created record id, rfl,
    ?_⟩, ⟨?_, ?_⟩, fun other before => (mem_next other).mpr (.inl before)⟩
  · rw [write, free]
    exact inserted
  · intro other isOther stands
    rcases (mem_next other).mp isOther with before | rfl
    · exact absurd stands (by rw [alone other before]; decide)
    · rfl
  · intro other isOther ofGuild
    rcases (mem_next other).mp isOther with before | rfl
    · exact kept.alive other before ofGuild
    · rfl
  · intro asked first isFirst second isSecond firstStands secondStands
    rcases (mem_next first).mp isFirst with firstBefore | rfl
    · rcases (mem_next second).mp isSecond with secondBefore | rfl
      · exact kept.single asked first firstBefore second secondBefore firstStands secondStands
      · exact (notAlone asked (stands_iff.mp secondStands).1 firstBefore firstStands).elim
    · rcases (mem_next second).mp isSecond with secondBefore | rfl
      · exact (notAlone asked (stands_iff.mp firstStands).1 secondBefore secondStands).elim
      · rfl

/-- The write of an upsert that finds no other live row in its way settles its text. -/
theorem write_settles (record : UpsertTranslation) (kept : Kept rows) {existing : Option JsString} {id : JsString}
    (fresh : rows.find id = none)
    (known : ∀ found ∈ existing, ∃ row ∈ rows.rows, row.id = found ∧ record.names row = true)
    (alone : ∀ row ∈ rows.rows, record.stands row = true → existing = some row.id) :
    ∃ next ∈ write rows record existing id, Settled next record ∧ Kept next ∧
      ∀ other ∈ rows.rows, ∃ later ∈ next.rows, later.id = other.id ∧
        ∀ asked : UpsertTranslation, asked.names later = asked.names other := by
  cases existing with
  | some found =>
      obtain ⟨row, member, rfl, names⟩ := known found rfl
      exact update_settles kept member names fun other isOther stands =>
        Option.some.inj (alone other isOther stands)
  | none =>
      have absent (other : TranslationRow) (isOther : other ∈ rows.rows) :
          record.stands other = false := by
        cases stands : record.stands other with
        | false => rfl
        | true => exact absurd (alone other isOther stands) (by simp)
      obtain ⟨next, written, settled, keptNext, before⟩ := create_settles kept fresh absent
      exact ⟨next, written, settled, keptNext, fun other isOther =>
        ⟨other, before other isOther, rfl, fun _ => rfl⟩⟩

end Write

/-! Runs. -/

structure Standing (state : Overrides) : Prop where
  ended : ∀ entry ∈ state.ended, ∃ rows ∈ entry.2, Settled rows entry.1
  kept : Kept state.rows
  known : ∀ entry ∈ state.underWay, ∀ id ∈ entry.2,
    ∃ row ∈ state.rows.rows, row.id = id ∧ entry.1.names row = true

theorem known_of_finds {rows : Rows} {record : UpsertTranslation} {existing : Option JsString}
    (found : finds rows record existing = true) :
    ∀ id ∈ existing, ∃ row ∈ rows.rows, row.id = id ∧ record.stands row = true := by
  rintro id rfl
  obtain ⟨row, member, both⟩ := List.any_eq_true.mp found
  rw [Bool.and_eq_true, decide_eq_true_eq] at both
  exact ⟨row, member, both⟩

theorem upserts_of_standing {state : Overrides} (standing : Standing state) : Upserts state := by
  refine ⟨standing.ended, fun record existing id found fresh => ?_⟩
  have known := known_of_finds found
  obtain ⟨next, written, settled, _⟩ := write_settles record standing.kept fresh
    (fun id isId => (known id isId).imp fun row both => ⟨both.1, both.2.1, (stands_iff.mp both.2.2).1⟩)
    fun row member stands => by
      cases existing with
      | none =>
          have none : ∀ other ∈ state.rows.rows, record.stands other ≠ true := by
            simpa [finds] using found
          exact absurd stands (none row member)
      | some id =>
          obtain ⟨other, otherMember, rfl, otherStands⟩ := known id rfl
          rw [standing.kept.single record other otherMember row member otherStands stands]
  exact ⟨next, written, settled⟩

theorem mem_deleteMany {rows : Rows} {selects : TranslationRow → Bool} {now : Timestamp}
    {other : TranslationRow} :
    other ∈ (deleteMany rows selects now).rows ↔
      ∃ row ∈ rows.rows, (if selects row then row.deleted now else row) = other :=
  Table.mem_update

theorem exists_deleted (rows : Rows) (selects : TranslationRow → Bool) (now : Timestamp)
    {row : TranslationRow} (member : row ∈ rows.rows) :
    ∃ later ∈ (deleteMany rows selects now).rows,
      later.id = row.id ∧ ∀ asked : UpsertTranslation, asked.names later = asked.names row := by
  refine ⟨_, mem_deleteMany.mpr ⟨row, member, rfl⟩, ?_, fun asked => ?_⟩
  · split <;> rfl
  · split <;> rfl

/-- Rows that belong to no guild may go. -/
theorem standing_delete {state : Overrides} (standing : Standing state)
    (selects : TranslationRow → Bool) (now : Timestamp)
    (global : ∀ row ∈ state.rows.rows, selects row = true → row.guildId = none) :
    Standing { state with rows := deleteMany state.rows selects now } := by
  refine ⟨standing.ended, ⟨?_, ?_⟩, ?_⟩
  · intro row member ofGuild
    obtain ⟨before, isBefore, rfl⟩ := mem_deleteMany.mp member
    split at ofGuild
    · rename_i selected
      rw [TranslationRow.deleted, global before isBefore selected] at ofGuild
      cases ofGuild
    · rename_i kept
      rw [if_neg kept]
      exact standing.kept.alive before isBefore ofGuild
  · intro record first isFirst second isSecond firstStands secondStands
    have stood (row : TranslationRow) (stands : record.stands row = true)
        (member : row ∈ (deleteMany state.rows selects now).rows) :
        row ∈ state.rows.rows := by
      obtain ⟨before, isBefore, rfl⟩ := mem_deleteMany.mp member
      split at stands
      · exact absurd (stands_iff.mp stands).2 (by simp [TranslationRow.deleted])
      · rename_i kept
        rwa [if_neg kept]
    exact standing.kept.single record first (stood first firstStands isFirst) second
      (stood second secondStands isSecond) firstStands secondStands
  · intro entry isEntry id isId
    obtain ⟨row, member, rfl, names⟩ := standing.known entry isEntry id isId
    obtain ⟨later, isLater, sameId, same⟩ := exists_deleted state.rows selects now member
    exact ⟨later, isLater, sameId, (same entry.1).trans names⟩

theorem standing_step {state next : Overrides} {request : Request} (standing : Standing state)
    (unhindered : Unhindered state request) (taken : perform state request = some next) :
    Standing next := by
  cases request with
  | find record existing =>
      simp only [perform] at taken
      split at taken
      · rename_i found
        obtain rfl := Option.some.inj taken
        refine ⟨standing.ended, standing.kept, fun entry isEntry id isId => ?_⟩
        rcases List.mem_append.mp isEntry with before | isNew
        · exact standing.known entry before id isId
        · obtain rfl := List.mem_singleton.mp isNew
          obtain ⟨row, member, isRow, stands⟩ := known_of_finds found id isId
          exact ⟨row, member, isRow, (stands_iff.mp stands).1⟩
      · cases taken
  | write index id =>
      simp only [perform] at taken
      split at taken
      · cases taken
      · rename_i record existing isUpsert
        split at taken
        · cases taken
        · rename_i fresh
          obtain rfl := Option.some.inj taken
          obtain ⟨rows, written, settled, kept, later⟩ := write_settles record standing.kept
            (Option.not_isSome_iff_eq_none.mp fresh)
            (standing.known _ (List.mem_of_getElem? isUpsert)) (unhindered _ isUpsert)
          rw [Option.mem_def] at written
          rw [written]
          refine ⟨fun entry isEntry => ?_, kept, fun entry isEntry id isId => ?_⟩
          · rcases List.mem_append.mp isEntry with before | isNew
            · exact standing.ended entry before
            · rw [List.mem_singleton.mp isNew]
              exact ⟨rows, rfl, settled⟩
          · obtain ⟨row, member, rfl, names⟩ :=
              standing.known entry (List.mem_of_mem_eraseIdx isEntry) id isId
            obtain ⟨after, isAfter, sameId, same⟩ := later row member
            exact ⟨after, isAfter, sameId, (same entry.1).trans names⟩
  | softDelete id now =>
      obtain ⟨rows, changed, rfl⟩ := Option.map_eq_some_iff.mp taken
      obtain ⟨row, found, rfl⟩ := Option.map_eq_some_iff.mp changed
      refine standing_delete standing _ now fun other member selected => ?_
      have sameId : other.id = id := by simpa using selected
      exact unhindered other (sameId ▸ Table.find_key member)
  | softDeleteByGuild guildId now =>
      obtain rfl := Option.some.inj taken
      refine standing_delete standing _ now fun other member selected => ?_
      rw [unhindered other member] at selected
      cases selected

def recordOf (row : TranslationRow) : UpsertTranslation :=
  { guildId := row.guildId, locale := row.locale, module := row.module, ns := row.ns
    key := row.key, value := row.value, updatedBy := row.updatedBy }

/-- Once its row is deleted, the text of a guild can be upserted no more. -/
theorem hindered_of_deleted {rows : Rows} (kept : Kept rows) {row : TranslationRow}
    (member : row ∈ rows.rows) (ofGuild : row.guildId.isSome = true)
    {selects : TranslationRow → Bool} (selected : selects row = true) (now : Timestamp)
    (further : ∀ record existing id,
      finds (deleteMany rows selects now) record existing =
        true →
      (deleteMany rows selects now).find id = none →
      ∃ next ∈ write (deleteMany rows selects now) record
        existing id, Settled next record) : False := by
  have names : (recordOf row).names row = true := names_iff.mpr ⟨rfl, rfl, rfl⟩
  have stands : (recordOf row).stands row = true :=
    stands_iff.mpr ⟨names, kept.alive row member ofGuild⟩
  obtain ⟨id, fresh⟩ := Table.exists_fresh
    (deleteMany rows selects now)
  have found : finds (deleteMany rows selects now)
      (recordOf row) none = true := by
    simp only [finds, Bool.not_eq_true', List.any_eq_false]
    intro other isOther otherStands
    obtain ⟨before, isBefore, rfl⟩ := mem_deleteMany.mp isOther
    split at otherStands
    · exact absurd (stands_iff.mp otherStands).2 (by simp [TranslationRow.deleted])
    · rename_i unselected
      rw [kept.single _ row member before isBefore stands otherStands] at unselected
      exact unselected selected
  obtain ⟨next, written, _⟩ := further (recordOf row) none id found fresh
  obtain ⟨later, isLater, _, same⟩ := exists_deleted rows selects now member
  have taken : ((recordOf row).guildId.isSome && (deleteMany rows selects now).rows.any (recordOf row).names) = true := by
    rw [Bool.and_eq_true]
    exact ⟨ofGuild, List.any_eq_true.mpr ⟨later, isLater, (same _).trans names⟩⟩
  rw [write, taken] at written
  cases written

/-- What an upsert leaves settled had no other live row in its way. -/
theorem alone_of_settles {rows next : Rows} {record : UpsertTranslation}
    {existing : Option JsString} {id : JsString} (fresh : rows.find id = none)
    (known : ∀ found ∈ existing, ∃ row ∈ rows.rows, row.id = found ∧ record.names row = true)
    (written : write rows record existing id = some next) (settled : Settled next record)
    {row : TranslationRow} (member : row ∈ rows.rows) (stands : record.stands row = true) :
    existing = some row.id := by
  obtain ⟨_, _, _, _, unique⟩ := settled
  cases existing with
  | some found =>
      obtain ⟨before, isBefore, rfl, names⟩ := known found rfl
      obtain ⟨_, _, rfl⟩ := Option.map_eq_some_iff.mp written
      have revalued : record.stands (before.revalued record) = true := stands_iff.mpr ⟨names, rfl⟩
      have isRevalued := unique _ (Table.mem_update.mpr ⟨before, isBefore, if_pos (by simp)⟩) revalued
      by_cases same : row.id = before.id
      · rw [same]
      · have isRow := unique row (Table.mem_update.mpr ⟨row, member, if_neg (by simpa using same)⟩) stands
        exact absurd (congrArg TranslationRow.id (isRow.trans isRevalued.symm)) same
  | none =>
      simp only [write] at written
      split at written
      · cases written
      · have isRow := unique row ((Table.mem_insert written).mpr (.inl member)) stands
        have isNew := unique _ ((Table.mem_insert written).mpr (.inr rfl)) (stands_created record id)
        have sameId : row.id = id := congrArg TranslationRow.id (isRow.trans isNew.symm)
        have found := Table.find_key member
        rw [sameId, fresh] at found
        cases found

theorem unhindered_of_upserts {state next : Overrides} {request : Request}
    (standing : Standing state) (taken : perform state request = some next)
    (upserts : Upserts next) : Unhindered state request := by
  cases request with
  | find record existing => trivial
  | write index id =>
      intro upsert isUpsert row member stands
      obtain ⟨record, existing⟩ := upsert
      simp only [perform, Option.mem_def.mp isUpsert] at taken
      split at taken
      · cases taken
      · rename_i fresh
        obtain rfl := Option.some.inj taken
        obtain ⟨rows, written, settled⟩ := upserts.ended _
          (List.mem_append_right _ List.mem_cons_self)
        exact alone_of_settles (Option.not_isSome_iff_eq_none.mp fresh)
          (standing.known _ (List.mem_of_getElem? isUpsert)) written settled member stands
  | softDelete id now =>
      intro row found
      obtain ⟨rows, changed, rfl⟩ := Option.map_eq_some_iff.mp taken
      obtain ⟨_, _, rfl⟩ := Option.map_eq_some_iff.mp changed
      obtain ⟨member, rfl⟩ := Table.find_eq_some_iff.mp found
      cases ofGuild : row.guildId with
      | none => rfl
      | some guildId =>
          exact (hindered_of_deleted standing.kept member (by rw [ofGuild]; rfl) (by simp) now
            upserts.further).elim
  | softDeleteByGuild guildId now =>
      intro row member
      obtain rfl := Option.some.inj taken
      cases selected : ofGuild guildId row with
      | false => rfl
      | true =>
          have both : row.guildId = some guildId ∧ row.deletedAt = none := by
            simpa [ofGuild] using selected
          exact (hindered_of_deleted standing.kept member (by rw [both.1]; rfl) selected now
            upserts.further).elim

theorem standing_start : Standing Overrides.start := by
  refine ⟨fun entry isEntry => ?_, ⟨fun row member => ?_, fun record row member => ?_⟩,
    fun entry isEntry => ?_⟩
  · cases isEntry
  · cases member
  · cases member
  · cases isEntry

theorem upserts_settle_iff (requests : List Request) :
    Always perform Upserts Overrides.start requests ↔
      Guarded perform Unhindered Overrides.start requests :=
  always_iff_guarded perform (fun _ (standing : Standing _) => upserts_of_standing standing)
    (fun _ _ _ standing unhindered taken => standing_step standing unhindered taken)
    (fun _ _ _ standing taken upserts => unhindered_of_upserts standing taken upserts)
    standing_start requests

def welcome (guildId : Option JsString) : UpsertTranslation :=
  { guildId, locale := js "pt", module := js "welcome", ns := js "greetings", key := js "hello"
    value := js "oi", updatedBy := none }

def creates (record : UpsertTranslation) (state : Overrides) : Bool :=
  !finds state.rows record none || (state.rows.find (js "new")).isSome ||
    (write state.rows record none (js "new")).isSome

theorem creates_of_upserts (record : UpsertTranslation) (state : Overrides)
    (upserts : Upserts state) : creates record state = true := by
  cases found : finds state.rows record none with
  | false => simp [creates, found]
  | true =>
      cases known : state.rows.find (js "new") with
      | some row => simp [creates, known]
      | none =>
          obtain ⟨rows, written, _⟩ := upserts.further record none (js "new") found known
          simp [creates, Option.mem_def.mp written]

def leavesOne (state : Overrides) : Bool :=
  state.ended.all fun entry => entry.2.all fun rows => rows.rows.all fun row =>
    rows.rows.all fun other => !entry.1.stands row || !entry.1.stands other || row = other

theorem leavesOne_of_upserts (state : Overrides) (upserts : Upserts state) :
    leavesOne state = true := by
  simp only [leavesOne, List.all_eq_true, Option.all_eq_true]
  intro entry isEntry rows isRows row member other isOther
  obtain ⟨_, isLeft, _, _, _, _, unique⟩ := upserts.ended entry isEntry
  obtain rfl := Option.some.inj (isRows.symm.trans isLeft)
  cases stands : entry.1.stands row with
  | false => rfl
  | true =>
      cases otherStands : entry.1.stands other with
      | false => rfl
      | true => simp [unique row member stands, unique other isOther otherStands]

/-- A text of a guild is deleted, and two upserts of a global text run side by side. -/
theorem upserts_unsettled :
    ¬ Always perform Upserts Overrides.start
      [.find (welcome (some (js "1"))) none, .write 0 (js "a"), .softDelete (js "a") 0] ∧
    ¬ Always perform Upserts Overrides.start
      [.find (welcome none) none, .find (welcome none) none, .write 0 (js "a"),
        .write 0 (js "b")] := by
  constructor
  · refine not_always perform (creates (welcome (some (js "1")))) (creates_of_upserts _) ?_
    decide +kernel
  · refine not_always perform leavesOne leavesOne_of_upserts ?_
    decide +kernel

end I18n
