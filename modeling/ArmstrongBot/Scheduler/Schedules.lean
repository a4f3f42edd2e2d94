import ArmstrongBot.Scheduler.Lifecycle
import Mathlib.Data.List.Nodup

/-! The table of schedules: `ScheduleRepository`. -/

namespace Scheduler

open JsText JsJson
open Calendar (Timestamp)

inductive ScheduleType
  | once
  | recurring
  deriving DecidableEq

structure ScheduleEntity where
  id : JsString
  guildId : Option JsString
  kind : JsString
  type : ScheduleType
  status : ScheduleStatus
  payload : Json
  idempotencyKey : Option JsString
  cron : Option JsString
  everyMs : Option Int
  timezone : JsString
  nextRunAt : Option Timestamp
  lastRunAt : Option Timestamp
  deferrable : Bool
  maxAttempts : Int
  bullJobId : Option JsString
  deletedAt : Option Timestamp

def ScheduleEntity.isLive (row : ScheduleEntity) : Bool := row.deletedAt = none

def ScheduleEntity.cancelled (now : Timestamp) (row : ScheduleEntity) : ScheduleEntity :=
  { row with deletedAt := some now, status := .cancelled }

def ScheduleEntity.withJob (bullJobId : JsString) (row : ScheduleEntity) : ScheduleEntity :=
  { row with bullJobId := some bullJobId }

def ScheduleEntity.paused (row : ScheduleEntity) : ScheduleEntity :=
  { row with status := .paused, bullJobId := none }

def ScheduleEntity.resumed (repeatKey : JsString) (row : ScheduleEntity) : ScheduleEntity :=
  { row with status := .active, bullJobId := some repeatKey }

structure DedupTuple where
  guildId : JsString
  kind : JsString
  idempotencyKey : JsString
  deriving DecidableEq

/-- What `@@unique([guildId, kind, idempotencyKey])` compares: a row with a NULL is like no other. -/
def ScheduleEntity.dedup (row : ScheduleEntity) : Option DedupTuple :=
  match row.guildId, row.idempotencyKey with
  | some guildId, some idempotencyKey => some { guildId, kind := row.kind, idempotencyKey }
  | _, _ => none

/-- The table `schedules` under its primary key and its unique index, which soft-deleted rows are
in as well. -/
structure Schedules where
  rows : List ScheduleEntity
  distinct : (rows.map ScheduleEntity.id).Nodup
  unique : (rows.filterMap ScheduleEntity.dedup).Nodup

namespace Schedules

def empty : Schedules := { rows := [], distinct := List.nodup_nil, unique := List.nodup_nil }

theorem eq_of_id {schedules : Schedules} {first second : ScheduleEntity}
    (firstMember : first ∈ schedules.rows) (secondMember : second ∈ schedules.rows)
    (same : first.id = second.id) : first = second :=
  List.inj_on_of_nodup_map schedules.distinct firstMember secondMember same

def ids (schedules : Schedules) : List JsString := schedules.rows.map ScheduleEntity.id

def tuples (schedules : Schedules) : List DedupTuple :=
  schedules.rows.filterMap ScheduleEntity.dedup

def Admits (schedules : Schedules) (row : ScheduleEntity) : Prop :=
  row.id ∉ schedules.ids ∧ ∀ tuple ∈ row.dedup, tuple ∉ schedules.tuples

instance (schedules : Schedules) (row : ScheduleEntity) : Decidable (schedules.Admits row) :=
  inferInstanceAs (Decidable (_ ∧ _))

def create (schedules : Schedules) (row : ScheduleEntity) : Option Schedules :=
  if admits : schedules.Admits row then
    some
      { rows := schedules.rows ++ [row]
        distinct := by
          rw [List.map_append, List.map_singleton]
          refine List.nodup_append.mpr ⟨schedules.distinct, List.nodup_singleton _, ?_⟩
          rintro known member other isNew rfl
          rw [List.mem_singleton.mp isNew] at member
          exact admits.1 member
        unique := by
          rw [List.filterMap_append]
          refine List.nodup_append.mpr ⟨schedules.unique, ?_, ?_⟩
          · cases isTuple : row.dedup <;> simp [isTuple]
          · rintro known member other isNew rfl
            obtain ⟨added, isRow, isTuple⟩ := List.mem_filterMap.mp isNew
            rw [List.mem_singleton.mp isRow] at isTuple
            exact admits.2 known isTuple member }
  else none

def findById (schedules : Schedules) (id : JsString) (guildId : Option (Option JsString)) :
    Option ScheduleEntity :=
  schedules.rows.find? fun row => row.id = id ∧ row.isLive ∧
    (match guildId with
    | none => true
    | some guildId => row.guildId = guildId : Bool)

def findByDedup (schedules : Schedules) (guildId : Option JsString) (kind idempotencyKey : JsString) :
    Option ScheduleEntity :=
  schedules.rows.find? fun row => row.guildId = guildId ∧ row.kind = kind ∧
    row.idempotencyKey = some idempotencyKey ∧ row.isLive

def findActiveRecurring (schedules : Schedules) : List ScheduleEntity :=
  schedules.rows.filter fun row => row.type = .recurring ∧ row.isLive ∧
    [ScheduleStatus.active, .pending, .paused].contains row.status

theorem comp_written {β : Type*} {f : ScheduleEntity → β} {change : ScheduleEntity → ScheduleEntity}
    (same : ∀ row, f (change row) = f row) (selects : ScheduleEntity → Prop)
    [DecidablePred selects] :
    (f ∘ fun row => if selects row then change row else row) = f := by
  funext row
  simp only [Function.comp_apply]
  split
  · exact same row
  · rfl

/-- `update` by primary key; what is written leaves the id and the dedup tuple alone. -/
def update (schedules : Schedules) (id : JsString) (change : ScheduleEntity → ScheduleEntity)
    (same : ∀ row, (change row).id = row.id ∧ (change row).dedup = row.dedup) : Schedules :=
  { rows := schedules.rows.map fun row => if row.id = id then change row else row
    distinct := by
      rw [List.map_map, comp_written fun row => (same row).1]
      exact schedules.distinct
    unique := by
      rw [List.filterMap_map, comp_written fun row => (same row).2]
      exact schedules.unique }

/-- `updateMany`, with the same restriction. -/
def updateMany (schedules : Schedules) (selects : ScheduleEntity → Bool)
    (change : ScheduleEntity → ScheduleEntity)
    (same : ∀ row, (change row).id = row.id ∧ (change row).dedup = row.dedup) : Schedules :=
  { rows := schedules.rows.map fun row => if selects row then change row else row
    distinct := by
      rw [List.map_map, comp_written fun row => (same row).1]
      exact schedules.distinct
    unique := by
      rw [List.filterMap_map, comp_written fun row => (same row).2]
      exact schedules.unique }

def softDelete (schedules : Schedules) (id : JsString) (now : Timestamp) : Schedules :=
  schedules.update id (.cancelled now) fun _ => ⟨rfl, rfl⟩

def setBullJobId (schedules : Schedules) (id bullJobId : JsString) : Schedules :=
  schedules.update id (.withJob bullJobId) fun _ => ⟨rfl, rfl⟩

/-- The rows that `softDeleteByGuild` reads. -/
def findByGuild (schedules : Schedules) (guildId : JsString) : List ScheduleEntity :=
  schedules.rows.filter fun row => row.guildId = some guildId ∧ row.isLive

/-- Its second query, which selects anew. -/
def softDeleteByGuild (schedules : Schedules) (guildId : JsString) (now : Timestamp) : Schedules :=
  schedules.updateMany (fun row => row.guildId = some guildId ∧ row.isLive) (.cancelled now)
    fun _ => ⟨rfl, rfl⟩

theorem create_of_admits {schedules : Schedules} {row : ScheduleEntity}
    (admits : schedules.Admits row) :
    ∃ next, schedules.create row = some next ∧ next.rows = schedules.rows ++ [row] :=
  ⟨_, dif_pos admits, rfl⟩

theorem create_some {schedules next : Schedules} {row : ScheduleEntity}
    (created : schedules.create row = some next) :
    schedules.Admits row ∧ next.rows = schedules.rows ++ [row] := by
  unfold create at created
  split at created
  · rename_i admits
    rw [← Option.some.inj created]
    exact ⟨admits, rfl⟩
  · cases created

theorem findById_some {schedules : Schedules} {id : JsString}
    {guildId : Option (Option JsString)} {row : ScheduleEntity}
    (found : schedules.findById id guildId = some row) :
    row ∈ schedules.rows ∧ row.id = id ∧ row.isLive = true := by
  refine ⟨List.mem_of_find?_eq_some found, ?_⟩
  have matching := List.find?_some found
  simp only [Bool.decide_and, Bool.and_eq_true, decide_eq_true_eq] at matching
  exact ⟨matching.1, matching.2.1⟩

theorem findById_of_mem {schedules : Schedules} {row : ScheduleEntity}
    (member : row ∈ schedules.rows) :
    schedules.findById row.id none = if row.isLive then some row else none := by
  split
  · rename_i isLive
    cases found : schedules.findById row.id none with
    | none =>
        have missed := List.find?_eq_none.mp found row member
        simp [isLive] at missed
    | some other =>
        obtain ⟨isOther, sameId, _⟩ := findById_some found
        rw [eq_of_id isOther member sameId]
  · rename_i isDead
    refine List.find?_eq_none.mpr fun other isOther selected => isDead ?_
    simp only [and_true, decide_eq_true_eq] at selected
    rw [← eq_of_id isOther member selected.1]
    exact selected.2

theorem findByDedup_some {schedules : Schedules} {guildId : Option JsString}
    {kind idempotencyKey : JsString} {row : ScheduleEntity}
    (found : schedules.findByDedup guildId kind idempotencyKey = some row) :
    row ∈ schedules.rows ∧ row.guildId = guildId ∧ row.kind = kind ∧
      row.idempotencyKey = some idempotencyKey ∧ row.isLive = true := by
  refine ⟨List.mem_of_find?_eq_some found, ?_⟩
  simpa using List.find?_some found

/-- Only what a change makes of the row of that id matters. -/
theorem update_congr {schedules : Schedules} {id : JsString}
    {change other : ScheduleEntity → ScheduleEntity}
    {same : ∀ row, (change row).id = row.id ∧ (change row).dedup = row.dedup}
    {sameToo : ∀ row, (other row).id = row.id ∧ (other row).dedup = row.dedup}
    (agree : ∀ row ∈ schedules.rows, row.id = id → change row = other row) :
    schedules.update id change same = schedules.update id other sameToo := by
  simp only [update, mk.injEq]
  refine List.map_congr_left fun row member => ?_
  split
  · rename_i isId
    exact agree row member isId
  · rfl

theorem ids_update (schedules : Schedules) (id : JsString)
    (change : ScheduleEntity → ScheduleEntity)
    (same : ∀ row, (change row).id = row.id ∧ (change row).dedup = row.dedup) :
    (schedules.update id change same).ids = schedules.ids := by
  rw [ids, ids, update, List.map_map, comp_written fun row => (same row).1]

theorem tuples_update (schedules : Schedules) (id : JsString)
    (change : ScheduleEntity → ScheduleEntity)
    (same : ∀ row, (change row).id = row.id ∧ (change row).dedup = row.dedup) :
    (schedules.update id change same).tuples = schedules.tuples := by
  rw [tuples, tuples, update, List.filterMap_map, comp_written fun row => (same row).2]

theorem tuples_softDelete (schedules : Schedules) (id : JsString) (now : Timestamp) :
    (schedules.softDelete id now).tuples = schedules.tuples :=
  schedules.tuples_update id (.cancelled now) fun _ => ⟨rfl, rfl⟩

theorem setBullJobId_rows (schedules : Schedules) (id bullJobId : JsString) :
    (schedules.setBullJobId id bullJobId).rows =
      schedules.rows.map fun row => if row.id = id then row.withJob bullJobId else row := rfl

end Schedules

end Scheduler
