import ArmstrongBot.Library.Deferral
import ArmstrongBot.Scheduler.Domain
import Mathlib.Algebra.Group.Int.Defs

/-! Where `resolveAgainstMaintenance` puts a job, against the occurrences of the windows. -/

namespace Scheduler

open JsText Deferral

/-- The occurrences of an expression in a time zone. -/
abbrev Occurrences := JsString → JsString → Set Int

/-- `prev` yields the greatest occurrence strictly before the current date. -/
def YieldsPrevious (parser : CronParser) (occurrences : Occurrences) : Prop :=
  ∀ cron timezone time,
    IsGreatest {start | start ∈ occurrences cron timezone ∧ start < time}
      (parser.prev cron timezone time)

def windowsOf (guildConfig : SchedulerGuildConfig) : List MaintenanceWindow :=
  guildConfig.maintenanceWindows.map fun window =>
    MaintenanceWindow.from_ window guildConfig.timezone

/-- The instant lies in `[start, start + duration)` of an occurrence of a deferring window. -/
def Busy (occurrences : Occurrences) (windows : List MaintenanceWindow) (time : Int) : Prop :=
  ∃ window ∈ windows, window.deferNonCritical = true ∧
    ∃ start ∈ occurrences window.cron window.timezone,
      start ≤ time ∧ time < start + window.durationMs

/-- The instant lies in such an occurrence, and not at its start. -/
def Inside (occurrences : Occurrences) (window : MaintenanceWindow) (time : Int) : Prop :=
  window.deferNonCritical = true ∧ ∃ start ∈ occurrences window.cron window.timezone,
    start < time ∧ time < start + window.durationMs

def IsEarliestClear (occurrences : Occurrences) (windows : List MaintenanceWindow)
    (runAt time : Int) : Prop :=
  IsLeast {instant | runAt ≤ instant ∧ ¬ Busy occurrences windows instant} time

/-- A job is moved from inside an occurrence of the first listed window that is open, to the end
of the last such occurrence. -/
def deferral (parser : CronParser) (windows : List MaintenanceWindow) (cursor : Int) :
    Option Int :=
  (windows.find? fun window => window.deferNonCritical && window.contains parser cursor).bind
    fun blocking => blocking.endOfWindowAt parser cursor

/-- Deferrals lead to a clear instant, few enough, and on the way to it no instant is met at which
occurrences only start. -/
structure ClearsInTime (parser : CronParser) (occurrences : Occurrences)
    (windows : List MaintenanceWindow) (runAt clear : Int) : Prop where
  free : ¬ Busy occurrences windows clear
  inside : ∀ time, runAt ≤ time → time < clear →
    ∃ window ∈ windows, Inside occurrences window time
  soon : ∃ count ≤ windows.length * 2 + 1, Leads (deferral parser windows) count runAt clear

variable {parser : CronParser} {occurrences : Occurrences} {windows : List MaintenanceWindow}

theorem startCovering_some (yields : YieldsPrevious parser occurrences) {window : MaintenanceWindow}
    {time start : Int} (covering : window.startCovering parser time = some start) :
    start ∈ occurrences window.cron window.timezone ∧ start < time ∧
      time < start + window.durationMs := by
  simp only [MaintenanceWindow.startCovering] at covering
  split at covering
  · rename_i isOpen
    obtain rfl := Option.some.inj covering
    obtain ⟨⟨occurs, earlier⟩, _⟩ := yields window.cron window.timezone time
    exact ⟨occurs, earlier, Int.lt_add_of_sub_left_lt isOpen⟩
  · cases covering

theorem deferral_some (yields : YieldsPrevious parser occurrences) {cursor later : Int}
    (deferred : deferral parser windows cursor = some later) :
    ∃ window ∈ windows, window.deferNonCritical = true ∧
      ∃ start ∈ occurrences window.cron window.timezone,
        start < cursor ∧ cursor < later ∧ later = start + window.durationMs := by
  obtain ⟨blocking, found, ends⟩ := Option.bind_eq_some_iff.mp deferred
  obtain ⟨start, covering, rfl⟩ := Option.map_eq_some_iff.mp ends
  have blocks := List.find?_some found
  rw [Bool.and_eq_true] at blocks
  obtain ⟨occurs, earlier, isOpen⟩ := startCovering_some yields covering
  exact ⟨blocking, List.mem_of_find?_eq_some found, blocks.1, start, occurs, earlier, isOpen, rfl⟩

theorem deferral_passes (yields : YieldsPrevious parser occurrences) :
    Passes (fun time => ∃ window ∈ windows, Inside occurrences window time)
      (deferral parser windows) := by
  intro cursor later deferred
  obtain ⟨window, member, defers, start, occurs, earlier, isLater, rfl⟩ :=
    deferral_some yields deferred
  exact ⟨isLater, fun between lower upper =>
    ⟨window, member, defers, start, occurs, earlier.trans_le lower, upper⟩⟩

theorem busy_of_inside {time : Int}
    (inside : ∃ window ∈ windows, Inside occurrences window time) :
    Busy occurrences windows time := by
  obtain ⟨window, member, defers, start, occurs, earlier, isOpen⟩ := inside
  exact ⟨window, member, defers, start, occurs, earlier.le, isOpen⟩

theorem clearWindows_eq (rounds : Nat) (cursor : Int) (deferred : Bool) :
    (clearWindows parser windows rounds (cursor, deferred)).1 =
      run (deferral parser windows) rounds cursor := by
  induction rounds generalizing cursor deferred with
  | zero => rfl
  | succ rounds ih =>
      rw [clearWindows, run, deferral]
      cases windows.find? fun window =>
          window.deferNonCritical && window.contains parser cursor with
      | none => rfl
      | some blocking =>
          simp only [Option.bind_some]
          cases blocking.endOfWindowAt parser cursor with
          | none => rfl
          | some closing => exact ih closing true

theorem resolve_eq_run (runAt : Int) (guildConfig : SchedulerGuildConfig) :
    (resolveAgainstMaintenance parser runAt true guildConfig).1 =
      run (deferral parser (windowsOf guildConfig)) ((windowsOf guildConfig).length * 2 + 1)
        runAt := by
  rw [resolveAgainstMaintenance, if_pos rfl]
  exact clearWindows_eq _ _ _

/-- A deferrable job gets the earliest instant outside the windows exactly where deferrals lead to
it in time. -/
theorem resolvesEarliest_iff (yields : YieldsPrevious parser occurrences) (runAt : Int)
    (guildConfig : SchedulerGuildConfig) :
    IsEarliestClear occurrences (windowsOf guildConfig) runAt
        (resolveAgainstMaintenance parser runAt true guildConfig).1 ↔
      ∃ clear, ClearsInTime parser occurrences (windowsOf guildConfig) runAt clear := by
  rw [resolve_eq_run]
  have passes : Passes
      (fun time => ∃ window ∈ windowsOf guildConfig, Inside occurrences window time)
      (deferral parser (windowsOf guildConfig)) := deferral_passes yields
  constructor
  · intro earliest
    obtain ⟨count, bound, leads⟩ := leads_run (deferral parser (windowsOf guildConfig))
      ((windowsOf guildConfig).length * 2 + 1) runAt
    exact ⟨_, earliest.1.2, (leads.passes passes).2, count, bound, leads⟩
  · rintro ⟨clear, isClear, _, count, bound, leads⟩
    have ends : deferral parser (windowsOf guildConfig) clear = none := by
      by_contra deferred
      obtain ⟨later, isLater⟩ := Option.ne_none_iff_exists'.mp deferred
      obtain ⟨first, all⟩ := passes clear later isLater
      exact isClear (busy_of_inside (all clear (le_refl _) first))
    rw [leads.run_eq ends bound]
    exact leads.isLeast (passes.mono fun _ => busy_of_inside) isClear

/-! A window of an hour that opens every day at midnight. -/

def day : Int := 86400000

def dailyParser : CronParser :=
  { prev := fun _ _ time => (time - 1) / day * day
    next := fun _ _ time => some ((time / day + 1) * day)
    isValidCron := fun _ _ => true }

def midnights : Occurrences := fun _ _ => {time | day ∣ time}

def midnightConfig : SchedulerGuildConfig :=
  { timezone := js "UTC"
    maintenanceWindows :=
      [{ cron := js "0 0 * * *", durationMinutes := 60, deferNonCritical := true }] }

theorem dailyParser_yields : YieldsPrevious dailyParser midnights := by
  intro cron timezone time
  simp only [dailyParser, midnights, day]
  refine ⟨⟨⟨(time - 1) / 86400000, Int.mul_comm _ _⟩, by omega⟩, ?_⟩
  rintro start ⟨⟨count, rfl⟩, earlier⟩
  omega

theorem resolvesEarliest_midnight :
    IsEarliestClear midnights (windowsOf midnightConfig) 600000
        (resolveAgainstMaintenance dailyParser 600000 true midnightConfig).1 ↔
      ∃ clear, ClearsInTime dailyParser midnights (windowsOf midnightConfig) 600000 clear :=
  resolvesEarliest_iff dailyParser_yields 600000 midnightConfig

theorem busy_midnight {time : Int} :
    Busy midnights (windowsOf midnightConfig) time ↔
      ∃ start, day ∣ start ∧ start ≤ time ∧ time < start + 3600000 := by
  simp [Busy, windowsOf, midnightConfig, MaintenanceWindow.from_, midnights]

/-- At its very start an occurrence does not hold the job back. -/
theorem start_not_deferred :
    ¬ ∀ (parser : CronParser) (occurrences : Occurrences), YieldsPrevious parser occurrences →
      ∀ (runAt : Int) (guildConfig : SchedulerGuildConfig),
        (∃ clear, IsEarliestClear occurrences (windowsOf guildConfig) runAt clear) →
        IsEarliestClear occurrences (windowsOf guildConfig) runAt
          (resolveAgainstMaintenance parser runAt true guildConfig).1 := by
  intro all
  have hour : IsEarliestClear midnights (windowsOf midnightConfig) 0 3600000 := by
    refine ⟨⟨by decide, ?_⟩, ?_⟩
    · rw [busy_midnight]
      rintro ⟨_, ⟨count, rfl⟩, bounds⟩
      unfold day at bounds
      omega
    · rintro time ⟨later, free⟩
      rw [busy_midnight] at free
      by_contra early
      exact free ⟨0, Int.dvd_zero day, later, by omega⟩
  have earliest := all dailyParser midnights dailyParser_yields 0 midnightConfig ⟨3600000, hour⟩
  have stays : (resolveAgainstMaintenance dailyParser 0 true midnightConfig).1 = 0 := by decide
  rw [stays] at earliest
  exact earliest.1.2 (busy_midnight.mpr ⟨0, Int.dvd_zero day, by decide, by decide⟩)

end Scheduler
