import ArmstrongBot.Library.IsoDate
import ArmstrongBot.Library.Processes
import ArmstrongBot.Library.StepMachine
import ArmstrongBot.Library.Table
import ArmstrongBot.Metrics.Recording

/-! The history of rollups: `application/metrics-snapshot.writer.ts` over
`infrastructure/repositories/metrics-snapshot.repository.ts`, where captures and prunes may wait
for the database at the same time. -/

namespace MetricsSnapshots

open JsText Metrics StepMachine
open Calendar (Timestamp toISOString)

def scopeText : MetricScope → JsString
  | .system => js "system"
  | .gateway => js "gateway"
  | .api => js "api"
  | .database => js "database"
  | .cache => js "cache"
  | .queue => js "queue"
  | .commands => js "commands"

def toDbScope : MetricScope → JsString
  | .system => js "SYSTEM"
  | .gateway => js "GATEWAY"
  | .api => js "API"
  | .database => js "DATABASE"
  | .cache => js "CACHE"
  | .queue => js "QUEUE"
  | .commands => js "COMMANDS"

def fromDbScope (value : JsString) : Option MetricScope :=
  metricScopes.find? fun scope => scopeText scope = toLowerCase value

theorem fromDbScope_toDbScope (scope : MetricScope) : fromDbScope (toDbScope scope) = some scope := by
  cases scope <;> decide

theorem toDbScope_injective {first second : MetricScope} (same : toDbScope first = toDbScope second) :
    first = second := by
  have read := fromDbScope_toDbScope first
  rw [same, fromDbScope_toDbScope] at read
  exact (Option.some.inj read).symm

/-- A column of JSON has `null` for a number that is not finite. -/
structure MetricSnapshot where
  id : JsString
  scope : JsString
  guildId : Option JsString
  capturedAt : Timestamp
  values : List (MetricName × Option Rat)
  deletedAt : Option Timestamp
  deriving DecidableEq

abbrev Snapshots := Table MetricSnapshot.id

structure MetricsSnapshotView where
  id : JsString
  scope : MetricScope
  guildId : Option JsString
  capturedAt : Timestamp
  values : List (MetricName × Option Rat)

def toView (row : MetricSnapshot) : Option MetricsSnapshotView :=
  (fromDbScope row.scope).map fun scope =>
    { id := row.id, scope, guildId := row.guildId, capturedAt := row.capturedAt
      values := row.values }

structure CreateSnapshotInput where
  scope : MetricScope
  guildId : Option JsString
  capturedAt : Timestamp
  values : List (MetricName × Quantity)

def newRow (id : JsString) (input : CreateSnapshotInput) : MetricSnapshot :=
  { id, scope := toDbScope input.scope, guildId := input.guildId, capturedAt := input.capturedAt
    values := input.values.map fun entry => (entry.1, entry.2.toFinite), deletedAt := none }

def softDelete (deletedAt : Timestamp) (row : MetricSnapshot) : MetricSnapshot :=
  { row with deletedAt := some deletedAt }

theorem softDelete_id (deletedAt : Timestamp) (row : MetricSnapshot) :
    (softDelete deletedAt row).id = row.id := rfl

def olderThan (cutoff : Timestamp) (row : MetricSnapshot) : Bool :=
  row.capturedAt < cutoff && row.deletedAt.isNone

def softDeletedBefore (graceCutoff : Timestamp) (row : MetricSnapshot) : Bool :=
  row.deletedAt.any fun deletedAt => deletedAt < graceCutoff

/-- The rows afterwards, and how many were affected. -/
def softDeleteOlderThan (rows : Snapshots) (cutoff deletedAt : Timestamp) : Snapshots × Nat :=
  (rows.update (olderThan cutoff) (softDelete deletedAt) (softDelete_id deletedAt),
    rows.rows.countP (olderThan cutoff))

def hardDeleteSoftDeletedBefore (rows : Snapshots) (graceCutoff : Timestamp) : Snapshots × Nat :=
  (rows.discard (softDeletedBefore graceCutoff), rows.rows.countP (softDeletedBefore graceCutoff))

structure SnapshotCreated where
  snapshotId : JsString
  scope : MetricScope
  guildId : Option JsString
  capturedAt : JsString
  deriving DecidableEq

def snapshotCreated (view : MetricsSnapshotView) : SnapshotCreated :=
  { snapshotId := view.id, scope := view.scope, guildId := none
    capturedAt := toISOString view.capturedAt }

def msPerDay : Int := 24 * 60 * 60 * 1000

def retentionGraceDays : Int := 7

/-- The schema asks for a day at least. -/
structure SnapshotConfig where
  retentionDays : Int
  positive : 1 ≤ retentionDays

def SnapshotConfig.retention (config : SnapshotConfig) : Int := config.retentionDays * msPerDay

def grace : Int := retentionGraceDays * msPerDay

/-- A call that throws may have reached its service before. -/
inductive Outcome
  | done
  | threw (applied : Bool)

def Outcome.applied : Outcome → Bool
  | .done => true
  | .threw applied => applied

/-- A run of `capture` or of `prune`, at the call it waits for. -/
inductive Job
  | capturing (capturedAt : Timestamp) (remaining : List ScopedSnapshotValues) (written : Nat)
  | announcing (view : MetricsSnapshotView) (capturedAt : Timestamp)
      (remaining : List ScopedSnapshotValues) (written : Nat)
  | captured (written : Nat)
  | pruning (softCutoff hardCutoff deletedAt : Timestamp)
  | purging (hardCutoff : Timestamp) (softDeleted : Nat)
  | pruned (softDeleted hardDeleted : Nat)
  | failed

/-- The loop over the scopes. -/
def proceed (capturedAt : Timestamp) (remaining : List ScopedSnapshotValues) (written : Nat) : Job :=
  if remaining.isEmpty then .captured written else .capturing capturedAt remaining written

/-- Beside the table: the rows as they were created, and each soft delete that reached the table,
by its cutoff and the rows created before it. -/
structure State where
  now : Timestamp
  rows : Snapshots
  jobs : List Job
  published : List SnapshotCreated
  persisted : List MetricSnapshot
  sweeps : List (Timestamp × List MetricSnapshot)

def State.start (now : Timestamp) : State :=
  { now, rows := .empty, jobs := [], published := [], persisted := [], sweeps := [] }

inductive Action (κ : Type)
  | wait (elapsed : Nat)
  | capture (registry : Registry κ) (store : CacheCounts)
  | create (job : Nat) (id : JsString) (outcome : Outcome)
  | emit (job : Nat) (outcome : Outcome)
  | prune (elapsed : Nat)
  | softDelete (job : Nat) (outcome : Outcome)
  | hardDelete (job : Nat) (outcome : Outcome)

variable {κ : Type}

def createInput (capturedAt : Timestamp) (snapshot : ScopedSnapshotValues) : CreateSnapshotInput :=
  { scope := snapshot.scope, guildId := none, capturedAt, values := snapshot.values }

/-- The job after `create`: the row that came back is announced. -/
def created (outcome : Outcome) (row : MetricSnapshot) (capturedAt : Timestamp)
    (remaining : List ScopedSnapshotValues) (written : Nat) : Job :=
  match outcome, toView row with
  | .done, some view => .announcing view capturedAt remaining (written + 1)
  | _, _ => proceed capturedAt remaining written

def State.persist (state : State) (outcome : Outcome) (row : MetricSnapshot) : Option State :=
  if outcome.applied then
    (state.rows.insert row).map fun rows =>
      { state with rows, persisted := state.persisted ++ [row] }
  else some state

def State.sweep (state : State) (outcome : Outcome) (cutoff deletedAt : Timestamp) : State :=
  if outcome.applied then
    { state with
      rows := (softDeleteOlderThan state.rows cutoff deletedAt).1
      sweeps := state.sweeps ++ [(cutoff, state.persisted)] }
  else state

def State.purge (state : State) (outcome : Outcome) (graceCutoff : Timestamp) : State :=
  if outcome.applied then
    { state with rows := (hardDeleteSoftDeletedBefore state.rows graceCutoff).1 }
  else state

def State.setJob (state : State) (index : Nat) (job : Job) : State :=
  { state with jobs := state.jobs.set index job }

/-- Both readings of the clock come before the first statement; a date that is no date makes the
client throw. -/
def State.prune (state : State) (config : SnapshotConfig) (elapsed : Nat) : State :=
  let softCutoff := state.now - config.retention
  let hardCutoff := state.now - grace
  let job := if IsoDate.Valid softCutoff then .pruning softCutoff hardCutoff (state.now + elapsed)
    else .failed
  { state with now := state.now + elapsed, jobs := state.jobs ++ [job] }

def step (config : SnapshotConfig) (state : State) : Action κ → Option State
  | .wait elapsed => some { state with now := state.now + elapsed }
  | .capture registry store =>
      some { state with jobs := state.jobs ++ [proceed state.now (buildAll registry store) 0] }
  | .create index id outcome =>
      match state.jobs[index]? with
      | some (.capturing capturedAt (snapshot :: remaining) written) =>
          let row := newRow id (createInput capturedAt snapshot)
          -- An id that is drawn was never drawn before.
          if state.persisted.any (fun other => other.id = id) then none
          else (state.persist outcome row).map fun next =>
            next.setJob index (created outcome row capturedAt remaining written)
      | _ => none
  | .emit index outcome =>
      match state.jobs[index]? with
      | some (.announcing view capturedAt remaining written) =>
          some
            { state with
              published := if outcome.applied then state.published ++ [snapshotCreated view]
                else state.published
              jobs := state.jobs.set index (proceed capturedAt remaining written) }
      | _ => none
  | .prune elapsed => some (state.prune config elapsed)
  | .softDelete index outcome =>
      match state.jobs[index]? with
      | some (.pruning softCutoff hardCutoff deletedAt) =>
          let after := match outcome with
            | .done => .purging hardCutoff (softDeleteOlderThan state.rows softCutoff deletedAt).2
            | .threw _ => .failed
          some ((state.sweep outcome softCutoff deletedAt).setJob index after)
      | _ => none
  | .hardDelete index outcome =>
      match state.jobs[index]? with
      | some (.purging hardCutoff softDeleted) =>
          let after := match outcome with
            | .done => .pruned softDeleted (hardDeleteSoftDeletedBefore state.rows hardCutoff).2
            | .threw _ => .failed
          some ((state.purge outcome hardCutoff).setJob index after)
      | _ => none

/-! What a job has in hand. -/

/-- The row that a job is about to announce. -/
def Job.view : Job → Option MetricsSnapshotView
  | .announcing view _ _ _ => some view
  | _ => none

/-- Of a job that deletes: its cutoffs lie as far back as it began. -/
def Job.Timely (config : SnapshotConfig) (now : Timestamp) : Job → Prop
  | .pruning softCutoff hardCutoff deletedAt =>
      softCutoff + config.retention ≤ deletedAt ∧ deletedAt ≤ now ∧ hardCutoff + grace ≤ now
  | .purging hardCutoff _ => hardCutoff + grace ≤ now
  | _ => True

theorem Job.Timely.later {config : SnapshotConfig} {now later : Timestamp} {job : Job}
    (timely : job.Timely config now) (passed : now ≤ later) : job.Timely config later := by
  cases job with
  | pruning softCutoff hardCutoff deletedAt =>
      exact ⟨timely.1, timely.2.1.trans passed, timely.2.2.trans passed⟩
  | purging hardCutoff softDeleted => exact le_trans timely passed
  | _ => trivial

theorem proceed_timely (config : SnapshotConfig) (now capturedAt : Timestamp)
    (remaining : List ScopedSnapshotValues) (written : Nat) :
    (proceed capturedAt remaining written).Timely config now := by
  rw [proceed]
  split <;> trivial

theorem created_timely (config : SnapshotConfig) (now : Timestamp) (outcome : Outcome)
    (row : MetricSnapshot) (capturedAt : Timestamp) (remaining : List ScopedSnapshotValues)
    (written : Nat) : (created outcome row capturedAt remaining written).Timely config now := by
  unfold created
  split
  · trivial
  · exact proceed_timely config now capturedAt remaining written

theorem proceed_view (capturedAt : Timestamp) (remaining : List ScopedSnapshotValues)
    (written : Nat) : (proceed capturedAt remaining written).view = none := by
  rw [proceed]
  split <;> rfl

theorem created_view (outcome : Outcome) (row : MetricSnapshot) (capturedAt : Timestamp)
    (remaining : List ScopedSnapshotValues) (written : Nat) :
    (created outcome row capturedAt remaining written).view = none ∨
      ∃ view, outcome = .done ∧ toView row = some view ∧
        (created outcome row capturedAt remaining written).view = some view := by
  unfold created
  split
  · rename_i view shown
    exact .inr ⟨view, rfl, shown, rfl⟩
  · exact .inl (proceed_view capturedAt remaining written)

/-- No sweep that found the row had a cutoff behind its capture. -/
def Unswept (sweeps : List (Timestamp × List MetricSnapshot)) (snapshot : MetricSnapshot) : Prop :=
  ∀ sweep ∈ sweeps, snapshot ∈ sweep.2 → sweep.1 ≤ snapshot.capturedAt

/-- What the table has is what was created and not yet deleted, and nothing is deleted early. -/
structure Kept (config : SnapshotConfig) (state : State) : Prop where
  ids : (state.persisted.map MetricSnapshot.id).Nodup
  unmarked : ∀ snapshot ∈ state.persisted, snapshot.deletedAt = none
  known : ∀ row ∈ state.rows.rows, ∃ snapshot ∈ state.persisted,
    row = { snapshot with deletedAt := row.deletedAt }
  hidden : ∀ row ∈ state.rows.rows, ∀ deletedAt, row.deletedAt = some deletedAt →
    row.capturedAt + config.retention < deletedAt
  stored : ∀ snapshot ∈ state.persisted,
    (∃ deletedAt, { snapshot with deletedAt } ∈ state.rows.rows) ∨
      snapshot.capturedAt + config.retention + grace < state.now
  visible : ∀ snapshot ∈ state.persisted,
    snapshot ∈ state.rows.rows ↔ Unswept state.sweeps snapshot
  swept : ∀ sweep ∈ state.sweeps, sweep.1 + config.retention ≤ state.now ∧
    ∀ snapshot ∈ sweep.2, snapshot ∈ state.persisted
  jobs : ∀ job ∈ state.jobs, job.Timely config state.now

variable {config : SnapshotConfig} {state next : State}

theorem kept_start (now : Timestamp) : Kept config (.start now) := by
  constructor <;> simp [State.start, Table.empty, Unswept]

theorem Kept.wait (kept : Kept config state) {later : Timestamp} (passed : state.now ≤ later) :
    Kept config { state with now := later } where
  ids := kept.ids
  unmarked := kept.unmarked
  known := kept.known
  hidden := kept.hidden
  stored snapshot member := (kept.stored snapshot member).imp_right fun old => old.trans_le passed
  visible := kept.visible
  swept sweep member := ⟨(kept.swept sweep member).1.trans passed, (kept.swept sweep member).2⟩
  jobs job member := (kept.jobs job member).later passed

theorem Kept.withJobs (kept : Kept config state) {jobs : List Job}
    (timely : ∀ job ∈ jobs, job.Timely config state.now) :
    Kept config { state with jobs } :=
  { kept with jobs := timely }

theorem Kept.withJob (kept : Kept config state) {job : Job} (timely : job.Timely config state.now) :
    Kept config { state with jobs := state.jobs ++ [job] } := by
  refine kept.withJobs fun other member => ?_
  rcases List.mem_append.mp member with earlier | added
  · exact kept.jobs other earlier
  · rw [List.mem_singleton.mp added]
    exact timely

theorem Kept.setJob (kept : Kept config state) {job : Job} (timely : job.Timely config state.now)
    (index : Nat) : Kept config (state.setJob index job) := by
  refine kept.withJobs fun other member => ?_
  rcases Processes.mem_set member with rfl | ⟨place, _, isOther⟩
  · exact timely
  · exact kept.jobs other (List.mem_of_getElem? isOther)

theorem Kept.persist (kept : Kept config state) {outcome : Outcome} {row : MetricSnapshot}
    (unmarked : row.deletedAt = none) (fresh : ∀ other ∈ state.persisted, other.id ≠ row.id)
    (persisted : state.persist outcome row = some next) : Kept config next := by
  rw [State.persist] at persisted
  split at persisted
  · obtain ⟨rows, inserted, rfl⟩ := Option.map_eq_some_iff.mp persisted
    have isNew : row ∉ state.persisted := fun member => fresh row member rfl
    constructor
    case ids =>
      rw [List.map_append, List.map_singleton]
      refine List.nodup_append.mpr ⟨kept.ids, List.nodup_singleton _, ?_⟩
      intro id member other isOther same
      obtain ⟨snapshot, isSnapshot, rfl⟩ := List.mem_map.mp member
      exact fresh snapshot isSnapshot (same.trans (List.mem_singleton.mp isOther))
    case unmarked =>
      intro snapshot member
      rcases List.mem_append.mp member with earlier | added
      · exact kept.unmarked snapshot earlier
      · rw [List.mem_singleton.mp added]
        exact unmarked
    case known =>
      intro other member
      rcases (Table.mem_insert inserted).mp member with earlier | rfl
      · obtain ⟨snapshot, isSnapshot, same⟩ := kept.known other earlier
        exact ⟨snapshot, List.mem_append_left _ isSnapshot, same⟩
      · exact ⟨other, List.mem_append_right _ List.mem_cons_self, rfl⟩
    case hidden =>
      intro other member deletedAt marked
      rcases (Table.mem_insert inserted).mp member with earlier | rfl
      · exact kept.hidden other earlier deletedAt marked
      · rw [unmarked] at marked
        cases marked
    case stored =>
      intro snapshot member
      rcases List.mem_append.mp member with earlier | added
      · refine (kept.stored snapshot earlier).imp_left ?_
        rintro ⟨deletedAt, isRow⟩
        exact ⟨deletedAt, (Table.mem_insert inserted).mpr (.inl isRow)⟩
      · obtain rfl := List.mem_singleton.mp added
        exact .inl ⟨snapshot.deletedAt, (Table.mem_insert inserted).mpr (.inr rfl)⟩
    case visible =>
      intro snapshot member
      rcases List.mem_append.mp member with earlier | added
      · rw [← kept.visible snapshot earlier, Table.mem_insert inserted]
        refine or_iff_left ?_
        rintro rfl
        exact isNew earlier
      · obtain rfl := List.mem_singleton.mp added
        refine iff_of_true ((Table.mem_insert inserted).mpr (.inr rfl)) ?_
        intro sweep isSweep before
        exact absurd ((kept.swept sweep isSweep).2 snapshot before) isNew
    case swept =>
      intro sweep isSweep
      obtain ⟨past, before⟩ := kept.swept sweep isSweep
      exact ⟨past, fun snapshot member => List.mem_append_left _ (before snapshot member)⟩
    case jobs => exact kept.jobs
  · obtain rfl := Option.some.inj persisted
    exact kept

theorem olderThan_iff {cutoff : Timestamp} {row : MetricSnapshot} :
    olderThan cutoff row = true ↔ row.capturedAt < cutoff ∧ row.deletedAt = none := by
  simp [olderThan]

theorem softDeletedBefore_iff {graceCutoff : Timestamp} {row : MetricSnapshot} :
    softDeletedBefore graceCutoff row = true ↔
      ∃ deletedAt, row.deletedAt = some deletedAt ∧ deletedAt < graceCutoff := by
  simp [softDeletedBefore, Option.any_eq_true]

theorem mem_softDeleted {rows : Snapshots} {cutoff deletedAt : Timestamp} {other : MetricSnapshot} :
    other ∈ (softDeleteOlderThan rows cutoff deletedAt).1.rows ↔
      ∃ row ∈ rows.rows,
        (if olderThan cutoff row then softDelete deletedAt row else row) = other :=
  List.mem_map

/-- A row that no sweep has marked survives this one unmarked when it is young enough. -/
theorem mem_softDelete_iff {rows : Snapshots} {cutoff deletedAt : Timestamp} {row : MetricSnapshot}
    (unmarked : row.deletedAt = none) :
    row ∈ (softDeleteOlderThan rows cutoff deletedAt).1.rows ↔
      row ∈ rows.rows ∧ cutoff ≤ row.capturedAt := by
  rw [mem_softDeleted]
  constructor
  · rintro ⟨before, member, rfl⟩
    split at unmarked
    · cases unmarked
    · rename_i young
      rw [if_neg young]
      refine ⟨member, not_lt.mp fun old => young ?_⟩
      exact olderThan_iff.mpr ⟨old, unmarked⟩
  · rintro ⟨member, young⟩
    refine ⟨row, member, if_neg fun old => ?_⟩
    exact absurd (olderThan_iff.mp old).1 (not_lt.mpr young)

theorem Kept.sweep (kept : Kept config state) {cutoff deletedAt : Timestamp}
    (back : cutoff + config.retention ≤ deletedAt) (past : deletedAt ≤ state.now)
    (outcome : Outcome) : Kept config (state.sweep outcome cutoff deletedAt) := by
  rw [State.sweep]
  split
  · constructor
    case ids => exact kept.ids
    case unmarked => exact kept.unmarked
    case known =>
      intro other member
      obtain ⟨row, isRow, rfl⟩ := mem_softDeleted.mp member
      obtain ⟨snapshot, isSnapshot, same⟩ := kept.known row isRow
      refine ⟨snapshot, isSnapshot, ?_⟩
      split
      · rw [softDelete, same]
      · exact same
    case hidden =>
      intro other member marked isMarked
      obtain ⟨row, isRow, rfl⟩ := mem_softDeleted.mp member
      split at isMarked
      · rename_i old
        rw [if_pos old]
        obtain rfl : deletedAt = marked := Option.some.inj isMarked
        have before : row.capturedAt < cutoff := (olderThan_iff.mp old).1
        exact lt_of_lt_of_le (Int.add_lt_add_right before _) back
      · rename_i young
        rw [if_neg young]
        exact kept.hidden row isRow marked isMarked
    case stored =>
      intro snapshot member
      refine (kept.stored snapshot member).imp_left ?_
      rintro ⟨marked, isRow⟩
      by_cases old : olderThan cutoff { snapshot with deletedAt := marked } = true
      · exact ⟨some deletedAt, mem_softDeleted.mpr ⟨_, isRow, if_pos old⟩⟩
      · exact ⟨marked, mem_softDeleted.mpr ⟨_, isRow, if_neg old⟩⟩
    case visible =>
      intro snapshot member
      rw [mem_softDelete_iff (kept.unmarked snapshot member), kept.visible snapshot member]
      constructor
      · rintro ⟨earlier, young⟩ sweep isSweep before
        rcases List.mem_append.mp isSweep with known | added
        · exact earlier sweep known before
        · rw [List.mem_singleton.mp added]
          exact young
      · intro all
        refine ⟨fun sweep known => all sweep (List.mem_append_left _ known), ?_⟩
        exact all (cutoff, state.persisted) (List.mem_append_right _ List.mem_cons_self) member
    case swept =>
      intro sweep isSweep
      rcases List.mem_append.mp isSweep with known | added
      · exact kept.swept sweep known
      · rw [List.mem_singleton.mp added]
        exact ⟨back.trans past, fun _ member => member⟩
    case jobs => exact kept.jobs
  · exact kept

theorem Kept.purge (kept : Kept config state) {graceCutoff : Timestamp}
    (back : graceCutoff + grace ≤ state.now) (outcome : Outcome) :
    Kept config (state.purge outcome graceCutoff) := by
  rw [State.purge]
  split
  · have left {row : MetricSnapshot} (unmarked : row.deletedAt = none) :
        row ∈ (hardDeleteSoftDeletedBefore state.rows graceCutoff).1.rows ↔
          row ∈ state.rows.rows := by
      refine Table.mem_discard.trans (and_iff_left ?_)
      rw [softDeletedBefore, unmarked]
      rfl
    refine { kept with known := ?_, hidden := ?_, stored := ?_, visible := ?_ }
    · exact fun row member => kept.known row (Table.mem_discard.mp member).1
    · exact fun row member => kept.hidden row (Table.mem_discard.mp member).1
    · intro snapshot member
      rcases kept.stored snapshot member with ⟨marked, isRow⟩ | old
      · by_cases dropped : softDeletedBefore graceCutoff { snapshot with deletedAt := marked } = true
        · obtain ⟨deletedAt, rfl, expired⟩ := softDeletedBefore_iff.mp dropped
          have late : snapshot.capturedAt + config.retention < deletedAt :=
            kept.hidden _ isRow deletedAt rfl
          exact .inr (lt_of_lt_of_le (Int.add_lt_add_right (late.trans expired) _) back)
        · exact .inl ⟨marked, Table.mem_discard.mpr ⟨isRow, eq_false_of_ne_true dropped⟩⟩
      · exact .inr old
    · intro snapshot member
      exact (left (kept.unmarked snapshot member)).trans (kept.visible snapshot member)
  · exact kept

theorem sweep_now (state : State) (outcome : Outcome) (cutoff deletedAt : Timestamp) :
    (state.sweep outcome cutoff deletedAt).now = state.now := by
  rw [State.sweep]
  split <;> rfl

theorem kept_step (kept : Kept config state) {action : Action κ}
    (taken : step config state action = some next) : Kept config next := by
  cases action with
  | wait elapsed =>
      obtain rfl := Option.some.inj taken
      exact kept.wait (Int.le_add_of_nonneg_right (Int.natCast_nonneg elapsed))
  | capture registry store =>
      obtain rfl := Option.some.inj taken
      exact kept.withJob (proceed_timely config _ _ _ _)
  | create index id outcome =>
      simp only [step] at taken
      split at taken
      · rename_i capturedAt snapshot remaining written isJob
        split at taken
        · cases taken
        · rename_i fresh
          obtain ⟨persisted, isPersisted, rfl⟩ := Option.map_eq_some_iff.mp taken
          have apart : ∀ other ∈ state.persisted, other.id ≠ id := by simpa using fresh
          exact (kept.persist rfl apart isPersisted).setJob (created_timely config _ _ _ _ _ _) index
      · cases taken
  | emit index outcome =>
      simp only [step] at taken
      split at taken
      · obtain rfl := Option.some.inj taken
        exact { kept.setJob (proceed_timely config _ _ _ _) index with }
      · cases taken
  | prune elapsed =>
      obtain rfl := Option.some.inj taken
      have later := kept.wait (Int.le_add_of_nonneg_right (Int.natCast_nonneg elapsed))
      refine later.withJob ?_
      split
      · refine ⟨?_, le_rfl, ?_⟩
        · exact (Int.sub_add_cancel _ _).trans_le (Int.le_add_of_nonneg_right (Int.natCast_nonneg elapsed))
        · exact (Int.sub_add_cancel _ _).trans_le (Int.le_add_of_nonneg_right (Int.natCast_nonneg elapsed))
      · trivial
  | softDelete index outcome =>
      simp only [step] at taken
      split at taken
      · rename_i softCutoff hardCutoff deletedAt isJob
        obtain rfl := Option.some.inj taken
        obtain ⟨back, past, graced⟩ := kept.jobs _ (List.mem_of_getElem? isJob)
        refine (kept.sweep back past outcome).setJob ?_ index
        rw [sweep_now]
        cases outcome with
        | done => exact graced
        | threw applied => trivial
      · cases taken
  | hardDelete index outcome =>
      simp only [step] at taken
      split at taken
      · rename_i hardCutoff softDeleted isJob
        obtain rfl := Option.some.inj taken
        have graced : hardCutoff + grace ≤ state.now := kept.jobs _ (List.mem_of_getElem? isJob)
        refine (kept.purge graced outcome).setJob ?_ index
        cases outcome <;> trivial
      · cases taken

/-! At most one event for a row, and only for a row that the table took. -/

def SameRow (first second : Job) : Prop :=
  ∃ view other, first.view = some view ∧ second.view = some other ∧ view.id = other.id

structure Announced (state : State) : Prop where
  events : (state.published.map SnapshotCreated.snapshotId).Nodup
  sourced : ∀ event ∈ state.published, ∃ snapshot ∈ state.persisted,
    (toView snapshot).map snapshotCreated = some event
  pending : ∀ job ∈ state.jobs, ∀ view, job.view = some view →
    (∃ snapshot ∈ state.persisted, toView snapshot = some view) ∧
      ∀ event ∈ state.published, event.snapshotId ≠ view.id
  apart : Processes.Apart SameRow state.jobs

theorem toView_id {row : MetricSnapshot} {view : MetricsSnapshotView}
    (shown : toView row = some view) : view.id = row.id := by
  obtain ⟨scope, _, rfl⟩ := Option.map_eq_some_iff.mp shown
  rfl

theorem apart_set {jobs : List Job} (apart : Processes.Apart SameRow jobs) {job : Job}
    (silent : job.view = none) (index : Nat) : Processes.Apart SameRow (jobs.set index job) := by
  refine apart.set fun place other isOther clashes => ?_
  rcases clashes with ⟨view, _, isView, _⟩ | ⟨_, view, _, isView, _⟩
  · rw [silent] at isView
    cases isView
  · rw [silent] at isView
    cases isView

theorem announced_start (now : Timestamp) : Announced (.start now) := by
  constructor <;> simp [State.start, Processes.Apart]

/-- A job that announces nothing, over a table that may have grown. -/
theorem Announced.quiet (announced : Announced state) {persisted : List MetricSnapshot}
    {jobs : List Job} (grown : ∀ snapshot ∈ state.persisted, snapshot ∈ persisted)
    (silent : ∀ job ∈ jobs, job.view ≠ none → job ∈ state.jobs)
    (apart : Processes.Apart SameRow jobs) (same : next.published = state.published)
    (isPersisted : next.persisted = persisted) (isJobs : next.jobs = jobs) : Announced next := by
  subst isPersisted isJobs
  constructor
  case events =>
    rw [same]
    exact announced.events
  case sourced =>
    rw [same]
    intro event member
    obtain ⟨snapshot, isSnapshot, isEvent⟩ := announced.sourced event member
    exact ⟨snapshot, grown snapshot isSnapshot, isEvent⟩
  case pending =>
    rw [same]
    intro job member view isView
    have earlier := silent job member (by simp [isView])
    obtain ⟨⟨snapshot, isSnapshot, shown⟩, unsent⟩ := announced.pending job earlier view isView
    exact ⟨⟨snapshot, grown snapshot isSnapshot, shown⟩, unsent⟩
  case apart => exact apart

theorem Announced.withJob (announced : Announced state) {job : Job} (silent : job.view = none)
    (isJobs : next.jobs = state.jobs ++ [job]) (same : next.published = state.published)
    (persisted : next.persisted = state.persisted) : Announced next := by
  refine announced.quiet (fun _ member => member) ?_ ?_ same persisted isJobs
  · intro other member speaks
    rcases List.mem_append.mp member with earlier | added
    · exact earlier
    · rw [List.mem_singleton.mp added] at speaks
      exact absurd silent speaks
  · refine announced.apart.append fun other => ⟨?_, ?_⟩
    · rintro ⟨view, _, isView, _⟩
      rw [silent] at isView
      cases isView
    · rintro ⟨_, view, _, isView, _⟩
      rw [silent] at isView
      cases isView

theorem Announced.setJob (announced : Announced state) {job : Job} (silent : job.view = none)
    {index : Nat} (isJobs : next.jobs = state.jobs.set index job)
    (same : next.published = state.published)
    (grown : ∀ snapshot ∈ state.persisted, snapshot ∈ next.persisted) : Announced next := by
  refine announced.quiet grown ?_ ?_ same rfl isJobs
  · intro other member speaks
    rcases Processes.mem_set member with rfl | ⟨place, _, isOther⟩
    · exact absurd silent speaks
    · exact List.mem_of_getElem? isOther
  · exact apart_set announced.apart silent index

theorem Announced.announce (announced : Announced state) {row : MetricSnapshot}
    {view : MetricsSnapshotView} (shown : toView row = some view)
    (fresh : ∀ other ∈ state.persisted, other.id ≠ row.id) {index : Nat} {job : Job}
    (isView : job.view = some view) (isJobs : next.jobs = state.jobs.set index job)
    (same : next.published = state.published)
    (persisted : next.persisted = state.persisted ++ [row]) : Announced next := by
  have unsent : ∀ event ∈ state.published, event.snapshotId ≠ view.id := by
    intro event member sameId
    obtain ⟨snapshot, isSnapshot, isEvent⟩ := announced.sourced event member
    obtain ⟨other, isOther, rfl⟩ := Option.map_eq_some_iff.mp isEvent
    exact fresh snapshot isSnapshot ((toView_id isOther).symm.trans (sameId.trans (toView_id shown)))
  have alone : ∀ other ∈ state.jobs, ∀ otherView, other.view = some otherView →
      otherView.id ≠ view.id := by
    intro other member otherView isOther sameId
    obtain ⟨⟨snapshot, isSnapshot, isShown⟩, _⟩ := announced.pending other member otherView isOther
    exact fresh snapshot isSnapshot ((toView_id isShown).symm.trans (sameId.trans (toView_id shown)))
  constructor
  case events =>
    rw [same]
    exact announced.events
  case sourced =>
    rw [same, persisted]
    intro event member
    obtain ⟨snapshot, isSnapshot, isEvent⟩ := announced.sourced event member
    exact ⟨snapshot, List.mem_append_left _ isSnapshot, isEvent⟩
  case pending =>
    rw [isJobs, same, persisted]
    intro other member otherView isOther
    rcases Processes.mem_set member with rfl | ⟨place, _, isPlace⟩
    · obtain rfl : view = otherView := Option.some.inj (isView.symm.trans isOther)
      exact ⟨⟨row, List.mem_append_right _ List.mem_cons_self, shown⟩, unsent⟩
    · obtain ⟨⟨snapshot, isSnapshot, isShown⟩, before⟩ :=
        announced.pending other (List.mem_of_getElem? isPlace) otherView isOther
      exact ⟨⟨snapshot, List.mem_append_left _ isSnapshot, isShown⟩, before⟩
  case apart =>
    rw [isJobs]
    refine announced.apart.set fun place other isPlace clashes => ?_
    have member := List.mem_of_getElem? isPlace
    rcases clashes with ⟨first, second, isFirst, isSecond, sameId⟩ |
        ⟨first, second, isFirst, isSecond, sameId⟩
    · obtain rfl : view = first := Option.some.inj (isView.symm.trans isFirst)
      exact absurd sameId.symm (alone other member second isSecond)
    · obtain rfl : view = second := Option.some.inj (isView.symm.trans isSecond)
      exact absurd sameId (alone other member first isFirst)

theorem Announced.emit (announced : Announced state) {index : Nat} {job after : Job}
    {view : MetricsSnapshotView} (isJob : state.jobs[index]? = some job)
    (isView : job.view = some view) (silent : after.view = none)
    (isJobs : next.jobs = state.jobs.set index after)
    (published : next.published = state.published ++ [snapshotCreated view])
    (persisted : next.persisted = state.persisted) : Announced next := by
  obtain ⟨⟨snapshot, isSnapshot, shown⟩, unsent⟩ :=
    announced.pending job (List.mem_of_getElem? isJob) view isView
  constructor
  case events =>
    rw [published, List.map_append, List.map_singleton]
    refine List.nodup_append.mpr ⟨announced.events, List.nodup_singleton _, ?_⟩
    intro id member other isOther same
    obtain ⟨event, isEvent, rfl⟩ := List.mem_map.mp member
    exact unsent event isEvent (same.trans (List.mem_singleton.mp isOther))
  case sourced =>
    rw [published, persisted]
    intro event member
    rcases List.mem_append.mp member with earlier | added
    · exact announced.sourced event earlier
    · rw [List.mem_singleton.mp added]
      exact ⟨snapshot, isSnapshot, by rw [shown, Option.map_some]⟩
  case pending =>
    rw [isJobs, published, persisted]
    intro other member otherView isOther
    rcases Processes.mem_set member with rfl | ⟨place, elsewhere, isPlace⟩
    · rw [silent] at isOther
      cases isOther
    · obtain ⟨source, before⟩ :=
        announced.pending other (List.mem_of_getElem? isPlace) otherView isOther
      refine ⟨source, fun event isEvent => ?_⟩
      rcases List.mem_append.mp isEvent with earlier | added
      · exact before event earlier
      · rw [List.mem_singleton.mp added]
        intro same
        exact elsewhere (announced.apart place index other job isPlace isJob
          ⟨otherView, view, isOther, isView, same.symm⟩)
  case apart =>
    rw [isJobs]
    exact apart_set announced.apart silent index

theorem persist_jobs {outcome : Outcome} {row : MetricSnapshot}
    (persisted : state.persist outcome row = some next) :
    next.jobs = state.jobs ∧ next.published = state.published ∧
      next.persisted = if outcome.applied then state.persisted ++ [row] else state.persisted := by
  rw [State.persist] at persisted
  split at persisted
  · rename_i applied
    obtain ⟨rows, _, rfl⟩ := Option.map_eq_some_iff.mp persisted
    exact ⟨rfl, rfl, (if_pos applied).symm⟩
  · rename_i refused
    obtain rfl := Option.some.inj persisted
    exact ⟨rfl, rfl, (if_neg refused).symm⟩

theorem sweep_jobs (state : State) (outcome : Outcome) (cutoff deletedAt : Timestamp) :
    (state.sweep outcome cutoff deletedAt).jobs = state.jobs ∧
      (state.sweep outcome cutoff deletedAt).published = state.published ∧
      (state.sweep outcome cutoff deletedAt).persisted = state.persisted := by
  rw [State.sweep]
  split <;> exact ⟨rfl, rfl, rfl⟩

theorem purge_jobs (state : State) (outcome : Outcome) (graceCutoff : Timestamp) :
    (state.purge outcome graceCutoff).jobs = state.jobs ∧
      (state.purge outcome graceCutoff).published = state.published ∧
      (state.purge outcome graceCutoff).persisted = state.persisted := by
  rw [State.purge]
  split <;> exact ⟨rfl, rfl, rfl⟩

theorem announced_step (announced : Announced state) {action : Action κ}
    (taken : step config state action = some next) : Announced next := by
  cases action with
  | wait elapsed =>
      obtain rfl := Option.some.inj taken
      exact { announced with }
  | capture registry store =>
      obtain rfl := Option.some.inj taken
      exact announced.withJob (proceed_view _ _ _) rfl rfl rfl
  | create index id outcome =>
      simp only [step] at taken
      split at taken
      · rename_i capturedAt snapshot remaining written isJob
        split at taken
        · cases taken
        · rename_i fresh
          obtain ⟨grown, isGrown, rfl⟩ := Option.map_eq_some_iff.mp taken
          obtain ⟨isJobs, same, persisted⟩ := persist_jobs isGrown
          have apart : ∀ other ∈ state.persisted, other.id ≠ id := by simpa using fresh
          rcases created_view outcome (newRow id (createInput capturedAt snapshot)) capturedAt
            remaining written with silent | ⟨view, rfl, shown, isView⟩
          · refine announced.setJob silent (congrArg (List.set · index _) isJobs) same ?_
            intro other member
            rw [State.setJob, persisted]
            split
            · exact List.mem_append_left _ member
            · exact member
          · exact announced.announce shown apart isView (congrArg (List.set · index _) isJobs) same
              persisted
      · cases taken
  | emit index outcome =>
      simp only [step] at taken
      split at taken
      · rename_i view capturedAt remaining written isJob
        obtain rfl := Option.some.inj taken
        cases applied : outcome.applied with
        | true => exact announced.emit isJob rfl (proceed_view _ _ _) rfl rfl rfl
        | false => exact announced.setJob (proceed_view _ _ _) rfl rfl fun _ member => member
      · cases taken
  | prune elapsed =>
      obtain rfl := Option.some.inj taken
      refine announced.withJob ?_ rfl rfl rfl
      split <;> rfl
  | softDelete index outcome =>
      simp only [step] at taken
      split at taken
      · rename_i softCutoff hardCutoff deletedAt isJob
        obtain rfl := Option.some.inj taken
        obtain ⟨isJobs, same, persisted⟩ := sweep_jobs state outcome softCutoff deletedAt
        refine announced.setJob ?_ (congrArg (List.set · index _) isJobs) same ?_
        · cases outcome <;> rfl
        · exact fun _ member => persisted.symm ▸ member
      · cases taken
  | hardDelete index outcome =>
      simp only [step] at taken
      split at taken
      · rename_i hardCutoff softDeleted isJob
        obtain rfl := Option.some.inj taken
        obtain ⟨isJobs, same, persisted⟩ := purge_jobs state outcome hardCutoff
        refine announced.setJob ?_ (congrArg (List.set · index _) isJobs) same ?_
        · cases outcome <;> rfl
        · exact fun _ member => persisted.symm ▸ member
      · cases taken

theorem kept_run {start : Timestamp} {actions : List (Action κ)} {state : State}
    (ran : run (step config) (.start start) actions = some state) : Kept config state :=
  invariant_run (step config) (fun _ _ _ holds taken => kept_step holds taken) ran (kept_start start)

/-- Of every rollup that was created, whatever jobs ran beside each other and wherever they failed:
it is shown until a sweep whose cutoff lies behind its capture, so for the retention at least, and
it stays in the table for the grace period beyond that. It is announced at most once. -/
theorem snapshots_kept {start : Timestamp} {actions : List (Action κ)} {state : State}
    (ran : run (step config) (.start start) actions = some state) :
    (state.persisted.map MetricSnapshot.id).Nodup ∧
      (∀ row ∈ state.rows.rows, ∃ snapshot ∈ state.persisted,
        row = { snapshot with deletedAt := row.deletedAt }) ∧
      (∀ snapshot ∈ state.persisted,
        (snapshot ∈ state.rows.rows ↔ Unswept state.sweeps snapshot) ∧
        (state.now ≤ snapshot.capturedAt + config.retention → snapshot ∈ state.rows.rows) ∧
        (state.now ≤ snapshot.capturedAt + config.retention + grace →
          ∃ deletedAt, { snapshot with deletedAt } ∈ state.rows.rows)) ∧
      (state.published.map SnapshotCreated.snapshotId).Nodup ∧
      ∀ event ∈ state.published, ∃ snapshot ∈ state.persisted,
        (toView snapshot).map snapshotCreated = some event := by
  have kept := kept_run ran
  have announced : Announced state := invariant_run (step config)
    (fun _ _ _ holds taken => announced_step holds taken) ran (announced_start start)
  refine ⟨kept.ids, kept.known, fun snapshot member => ⟨kept.visible snapshot member, ?_, ?_⟩,
    announced.events, announced.sourced⟩
  · intro young
    refine (kept.visible snapshot member).mpr fun sweep isSweep _ => ?_
    have back := (kept.swept sweep isSweep).1
    exact Int.le_of_add_le_add_right (back.trans young)
  · intro young
    exact (kept.stored snapshot member).resolve_right (not_lt.mpr young)

def dailyConfig : SnapshotConfig := { retentionDays := 1, positive := le_rfl }

def hitRatio (id : JsString) (capturedAt : Timestamp) (ratio : Rat) : MetricSnapshot :=
  newRow id (createInput capturedAt
    { scope := .cache, values := [(.cacheHitRatio, .finite ratio)] })

/-- A day and an hour lie between the two captures; the answer to the second write is lost. -/
def hitRatios : List (Action Unit) :=
  [.capture (.new [] true) { hits := 1, misses := 0 }, .create 0 (js "s1") .done, .emit 0 .done,
    .wait 90000000, .capture (.new [] true) { hits := 1, misses := 1 },
    .create 1 (js "s2") (.threw true), .prune 1, .softDelete 2 .done, .hardDelete 2 .done]

def hitRatiosState : State :=
  (run (step dailyConfig) (.start 0) hitRatios).get (by decide +kernel)

theorem hitRatios_ran :
    run (step dailyConfig) (.start 0) hitRatios = some hitRatiosState :=
  (Option.some_get _).symm

theorem snapshots_kept_hitRatios :
    (∃ deletedAt, { hitRatio (js "s1") 0 1 with deletedAt } ∈ hitRatiosState.rows.rows) ∧
      hitRatio (js "s2") 90000000 (1 / 2) ∈ hitRatiosState.rows.rows := by
  obtain ⟨_, _, kept, _⟩ := snapshots_kept hitRatios_ran
  have first : hitRatio (js "s1") 0 1 ∈ hitRatiosState.persisted := by decide +kernel
  have second : hitRatio (js "s2") 90000000 (1 / 2) ∈ hitRatiosState.persisted := by decide +kernel
  exact ⟨(kept _ first).2.2 (by decide +kernel), (kept _ second).2.1 (by decide +kernel)⟩

end MetricsSnapshots
