import ArmstrongBot.Library.Listing
import ArmstrongBot.Library.OffsetPaging
import ArmstrongBot.Metrics.SnapshotHistory

/-! What the history of rollups is made of, and what its readers are told: `latest` and `range` of
`infrastructure/repositories/metrics-snapshot.repository.ts`. -/

namespace MetricsSnapshots

open JsText Metrics StepMachine
open Calendar (Timestamp)

variable {κ : Type} {config : SnapshotConfig} {state next : State}

/-- A rollup of metrics of its own scope, one at least. -/
def Fits (snapshot : ScopedSnapshotValues) : Prop :=
  snapshot.values ≠ [] ∧
    ∀ entry ∈ snapshot.values, (metricCatalog entry.1).scope = snapshot.scope

theorem buildAll_fits {registry : Registry κ} {store : CacheCounts}
    {snapshot : ScopedSnapshotValues} (member : snapshot ∈ buildAll registry store) :
    Fits snapshot := by
  obtain ⟨isBuilt, nonempty⟩ := List.mem_filter.mp member
  obtain ⟨scope, _, rfl⟩ := List.mem_map.mp isBuilt
  refine ⟨by simpa using nonempty, fun entry isEntry => ?_⟩
  obtain ⟨name, _, chosen⟩ := List.mem_filterMap.mp isEntry
  split at chosen
  · cases chosen
  · rename_i ofScope
    obtain ⟨value, _, rfl⟩ := Option.map_eq_some_iff.mp chosen
    exact not_not.mp ofScope

def Job.remaining : Job → List ScopedSnapshotValues
  | .capturing _ remaining _ => remaining
  | .announcing _ _ remaining _ => remaining
  | _ => []

theorem proceed_remaining {capturedAt : Timestamp} {remaining : List ScopedSnapshotValues}
    {written : Nat} {snapshot : ScopedSnapshotValues}
    (member : snapshot ∈ (proceed capturedAt remaining written).remaining) :
    snapshot ∈ remaining := by
  rw [proceed] at member
  split at member
  · cases member
  · exact member

theorem created_remaining {outcome : Outcome} {row : MetricSnapshot} {capturedAt : Timestamp}
    {remaining : List ScopedSnapshotValues} {written : Nat} {snapshot : ScopedSnapshotValues}
    (member : snapshot ∈ (created outcome row capturedAt remaining written).remaining) :
    snapshot ∈ remaining := by
  unfold created at member
  split at member
  · exact member
  · exact proceed_remaining member

structure Made (state : State) : Prop where
  rows : ∀ row ∈ state.persisted, ∃ capturedAt snapshot,
    Fits snapshot ∧ row = newRow row.id (createInput capturedAt snapshot)
  remaining : ∀ job ∈ state.jobs, ∀ snapshot ∈ job.remaining, Fits snapshot

theorem made_start (now : Timestamp) : Made (.start now) := by
  constructor <;> simp [State.start]

theorem Made.withJob (made : Made state) {job : Job}
    (fits : ∀ snapshot ∈ job.remaining, Fits snapshot) (isJobs : next.jobs = state.jobs ++ [job])
    (same : next.persisted = state.persisted) : Made next := by
  constructor
  · rw [same]
    exact made.rows
  · rw [isJobs]
    intro other member
    rcases List.mem_append.mp member with earlier | added
    · exact made.remaining other earlier
    · rw [List.mem_singleton.mp added]
      exact fits

theorem Made.setJob (made : Made state) {job : Job}
    (fits : ∀ snapshot ∈ job.remaining, Fits snapshot) {index : Nat}
    (isJobs : next.jobs = state.jobs.set index job)
    (rows : ∀ row ∈ next.persisted, row ∈ state.persisted ∨ ∃ capturedAt snapshot,
      Fits snapshot ∧ row = newRow row.id (createInput capturedAt snapshot)) : Made next := by
  constructor
  · exact fun row member => (rows row member).elim (made.rows row) id
  · rw [isJobs]
    intro other member
    rcases Processes.mem_set member with rfl | ⟨place, _, isOther⟩
    · exact fits
    · exact made.remaining other (List.mem_of_getElem? isOther)

theorem made_step (made : Made state) {action : Action κ}
    (taken : step config state action = some next) : Made next := by
  cases action with
  | wait elapsed =>
      obtain rfl := Option.some.inj taken
      exact { made with }
  | capture registry store =>
      obtain rfl := Option.some.inj taken
      exact made.withJob (fun snapshot member => buildAll_fits (proceed_remaining member)) rfl rfl
  | create index id outcome =>
      simp only [step] at taken
      split at taken
      · rename_i capturedAt snapshot remaining written isJob
        split at taken
        · cases taken
        · obtain ⟨grown, isGrown, rfl⟩ := Option.map_eq_some_iff.mp taken
          obtain ⟨isJobs, _, persisted⟩ := persist_jobs isGrown
          have fits := made.remaining _ (List.mem_of_getElem? isJob)
          refine made.setJob ?_ (congrArg (List.set · index _) isJobs) ?_
          · exact fun other member => fits other (List.mem_cons_of_mem _ (created_remaining member))
          · intro row member
            rw [State.setJob, persisted] at member
            split at member
            · rcases List.mem_append.mp member with earlier | added
              · exact .inl earlier
              · obtain rfl := List.mem_singleton.mp added
                exact .inr ⟨capturedAt, snapshot, fits snapshot List.mem_cons_self, rfl⟩
            · exact .inl member
      · cases taken
  | emit index outcome =>
      simp only [step] at taken
      split at taken
      · rename_i view capturedAt remaining written isJob
        obtain rfl := Option.some.inj taken
        have fits := made.remaining _ (List.mem_of_getElem? isJob)
        exact made.setJob (fun other member => fits other (proceed_remaining member)) rfl
          fun _ member => .inl member
      · cases taken
  | prune elapsed =>
      obtain rfl := Option.some.inj taken
      refine made.withJob ?_ rfl rfl
      split <;> simp [Job.remaining]
  | softDelete index outcome =>
      simp only [step] at taken
      split at taken
      · rename_i softCutoff hardCutoff deletedAt isJob
        obtain rfl := Option.some.inj taken
        obtain ⟨isJobs, _, persisted⟩ := sweep_jobs state outcome softCutoff deletedAt
        refine made.setJob ?_ (congrArg (List.set · index _) isJobs) ?_
        · cases outcome <;> simp [Job.remaining]
        · exact fun row member => .inl (persisted ▸ member)
      · cases taken
  | hardDelete index outcome =>
      simp only [step] at taken
      split at taken
      · rename_i hardCutoff softDeleted isJob
        obtain rfl := Option.some.inj taken
        obtain ⟨isJobs, _, persisted⟩ := purge_jobs state outcome hardCutoff
        refine made.setJob ?_ (congrArg (List.set · index _) isJobs) ?_
        · cases outcome <;> simp [Job.remaining]
        · exact fun row member => .inl (persisted ▸ member)
      · cases taken

structure MetricsRangeQuery where
  scope : MetricScope
  guildId : Option JsString
  earliest : Timestamp
  upTo : Timestamp
  page : Nat
  pageSize : Nat

def ofScope (scope : MetricScope) (guildId : Option JsString) (row : MetricSnapshot) : Bool :=
  row.scope = toDbScope scope && row.guildId = guildId && row.deletedAt.isNone

def MetricsRangeQuery.selects (query : MetricsRangeQuery) (row : MetricSnapshot) : Bool :=
  ofScope query.scope query.guildId row &&
    (query.earliest ≤ row.capturedAt && row.capturedAt ≤ query.upTo)

structure PaginatedResult where
  items : List MetricsSnapshotView
  total : Nat
  page : Nat
  pageSize : Nat

/-- Of the rows as the database lists them. -/
def latest (listed : List MetricSnapshot) : Option (Option MetricsSnapshotView) :=
  match listed.head? with
  | some row => (toView row).map some
  | none => some none

theorem latest_cons (row : MetricSnapshot) (rest : List MetricSnapshot) :
    latest (row :: rest) = (toView row).map some := rfl

theorem latest_mem {listed : List MetricSnapshot} {view : MetricsSnapshotView}
    (told : latest listed = some (some view)) : ∃ row ∈ listed, toView row = some view := by
  cases listed with
  | nil => cases told
  | cons row rest =>
      obtain ⟨shown, isView, same⟩ := Option.map_eq_some_iff.mp told
      exact ⟨row, List.mem_cons_self, isView.trans same⟩

def range (rows : Snapshots) (query : MetricsRangeQuery) (listed : List MetricSnapshot) :
    Option PaginatedResult :=
  ((OffsetPaging.pageOf listed query.page query.pageSize).mapM toView).map fun items =>
    { items, total := rows.rows.countP query.selects, page := query.page
      pageSize := query.pageSize }

/-- What a listing of the table is read as: the rows of it that a query selects. -/
abbrev Lists (rows : Snapshots) (selects : MetricSnapshot → Bool) (listed : List MetricSnapshot) :
    Prop :=
  Listing.Descending MetricSnapshot.capturedAt (rows.rows.filter selects) listed

theorem toView_newRow (id : JsString) (input : CreateSnapshotInput) :
    toView (newRow id input) = some
      { id, scope := input.scope, guildId := input.guildId, capturedAt := input.capturedAt
        values := (newRow id input).values } := by
  rw [toView, newRow, fromDbScope_toDbScope]
  rfl

theorem toView_capturedAt {row : MetricSnapshot} {view : MetricsSnapshotView}
    (shown : toView row = some view) : view.capturedAt = row.capturedAt := by
  obtain ⟨scope, _, rfl⟩ := Option.map_eq_some_iff.mp shown
  rfl

theorem mapM_toView {rows : List MetricSnapshot} (shown : ∀ row ∈ rows, (toView row).isSome = true) :
    rows.mapM toView = some (rows.filterMap toView) := by
  induction rows with
  | nil => rfl
  | cons row rest ih =>
      obtain ⟨view, isView⟩ := Option.isSome_iff_exists.mp (shown row List.mem_cons_self)
      have later := ih fun other member => shown other (List.mem_cons_of_mem _ member)
      rw [List.mapM_cons, isView, later, List.filterMap_cons_some isView]
      rfl

theorem map_filterMap_toView {β : Type} {rows : List MetricSnapshot} {field : MetricSnapshot → β}
    {shownField : MetricsSnapshotView → β} (shown : ∀ row ∈ rows, (toView row).isSome = true)
    (same : ∀ row view, toView row = some view → shownField view = field row) :
    (rows.filterMap toView).map shownField = rows.map field := by
  induction rows with
  | nil => rfl
  | cons row rest ih =>
      obtain ⟨view, isView⟩ := Option.isSome_iff_exists.mp (shown row List.mem_cons_self)
      have later := ih fun other member => shown other (List.mem_cons_of_mem _ member)
      rw [List.filterMap_cons_some isView, List.map_cons, later, same row view isView,
        List.map_cons]

/-- The rows that a reader can meet are the ones that no sweep has reached. -/
theorem listed_iff (kept : Kept config state) {selects : MetricSnapshot → Bool}
    (unmarked : ∀ row, selects row = true → row.deletedAt = none) {listed : List MetricSnapshot}
    (lists : Lists state.rows selects listed) {row : MetricSnapshot} :
    row ∈ listed ↔
      row ∈ state.persisted ∧ Unswept state.sweeps row ∧ selects row = true := by
  rw [lists.perm.mem_iff, List.mem_filter]
  constructor
  · rintro ⟨isRow, selected⟩
    obtain ⟨snapshot, isSnapshot, same⟩ := kept.known row isRow
    rw [unmarked row selected, ← kept.unmarked snapshot isSnapshot] at same
    obtain rfl : row = snapshot := same
    exact ⟨isSnapshot, (kept.visible row isSnapshot).mp isRow, selected⟩
  · rintro ⟨isSnapshot, unswept, selected⟩
    exact ⟨(kept.visible row isSnapshot).mpr unswept, selected⟩

section

variable (kept : Kept config state) (made : Made state) {listed : List MetricSnapshot}
  {selects : MetricSnapshot → Bool} (unmarked : ∀ row, selects row = true → row.deletedAt = none)
  (lists : Lists state.rows selects listed)

include kept made unmarked lists

theorem listed_made : ∀ row ∈ listed, ∃ capturedAt snapshot,
    Fits snapshot ∧ row = newRow row.id (createInput capturedAt snapshot) := by
  intro row member
  exact made.rows row ((listed_iff kept unmarked lists).mp member).1

theorem listed_shown : ∀ row ∈ listed, (toView row).isSome = true := by
  intro row member
  obtain ⟨capturedAt, snapshot, _, same⟩ := listed_made kept made unmarked lists row member
  rw [same, toView_newRow]
  rfl

theorem listed_global : ∀ row ∈ listed, row.guildId = none := by
  intro row member
  obtain ⟨capturedAt, snapshot, _, same⟩ := listed_made kept made unmarked lists row member
  rw [same]
  rfl

theorem listed_scoped : ∀ row ∈ listed, ∀ view, toView row = some view →
    row.scope = toDbScope view.scope ∧ view.values ≠ [] ∧
      ∀ entry ∈ view.values, (metricCatalog entry.1).scope = view.scope := by
  intro row member view isView
  obtain ⟨capturedAt, snapshot, fits, same⟩ := listed_made kept made unmarked lists row member
  rw [same, toView_newRow] at isView
  obtain rfl := Option.some.inj isView
  rw [same]
  refine ⟨rfl, by simpa [newRow, createInput] using fits.1, ?_⟩
  intro entry isEntry
  obtain ⟨value, isValue, rfl⟩ := List.mem_map.mp isEntry
  exact fits.2 value isValue

theorem latest_newest : ∀ row ∈ listed, ∃ view,
    latest listed = some (some view) ∧ row.capturedAt ≤ view.capturedAt := by
  intro row member
  cases listed with
  | nil => cases member
  | cons first rest =>
      obtain ⟨view, isView⟩ := Option.isSome_iff_exists.mp
        (listed_shown kept made unmarked lists first List.mem_cons_self)
      refine ⟨view, by rw [latest_cons, isView, Option.map_some], ?_⟩
      rw [toView_capturedAt isView]
      rcases List.mem_cons.mp member with rfl | later
      · exact le_rfl
      · exact (List.pairwise_cons.mp lists.ordered).1 row later

end

theorem ofScope_iff {scope : MetricScope} {guildId : Option JsString} {row : MetricSnapshot} :
    ofScope scope guildId row = true ↔
      (row.scope = toDbScope scope ∧ row.guildId = guildId) ∧ row.deletedAt = none := by
  simp [ofScope]

theorem selects_iff {query : MetricsRangeQuery} {row : MetricSnapshot} :
    query.selects row = true ↔ ofScope query.scope query.guildId row = true ∧
      query.earliest ≤ row.capturedAt ∧ row.capturedAt ≤ query.upTo := by
  simp [MetricsRangeQuery.selects]

theorem made_run {start : Timestamp} {actions : List (Action κ)} {state : State}
    (ran : run (step config) (.start start) actions = some state) : Made state :=
  invariant_run (step config) (fun _ _ _ holds taken => made_step holds taken) ran (made_start start)

/-- The pages of a range, one after the other. -/
def pagesOf (query : MetricsRangeQuery) (listed : List MetricSnapshot) : List MetricsSnapshotView :=
  (List.range (OffsetPaging.pageCount listed.length query.pageSize)).flatMap fun index =>
    (OffsetPaging.pageOf listed (index + 1) query.pageSize).filterMap toView

theorem pagesOf_eq {query : MetricsRangeQuery} (positive : 0 < query.pageSize)
    (listed : List MetricSnapshot) : pagesOf query listed = listed.filterMap toView := by
  rw [pagesOf, ← List.filterMap_flatMap]
  exact congrArg (List.filterMap toView) (OffsetPaging.firstPages_all listed positive)

def cacheRange : MetricsRangeQuery :=
  { scope := .cache, guildId := none, earliest := 0, upTo := 90000000, page := 1, pageSize := 50 }

end MetricsSnapshots
