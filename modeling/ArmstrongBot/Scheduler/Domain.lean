import ArmstrongBot.Library.Calendar

/-! `SchedulerDomainService`: job ids, retries, next runs and maintenance windows. -/

namespace Scheduler

open JsText
open Calendar (Timestamp toISOString)

inductive BackoffStrategy
  | fixed
  | exponential
  deriving DecidableEq

structure SchedulerGlobalConfig where
  defaultMaxAttempts : Int
  defaultBackoffMs : Int
  backoffStrategy : BackoffStrategy
  deriving DecidableEq

structure MaintenanceWindowConfig where
  cron : JsString
  durationMinutes : Int
  deferNonCritical : Bool
  deriving DecidableEq

structure SchedulerGuildConfig where
  timezone : JsString
  maintenanceWindows : List MaintenanceWindowConfig
  deriving DecidableEq

/-- What is used of cron-parser: the last occurrence before an instant and the first one after it,
and whether it accepts an expression, each in a time zone. -/
structure CronParser where
  prev : JsString → JsString → Timestamp → Timestamp
  next : JsString → JsString → Timestamp → Option Timestamp
  isValidCron : JsString → JsString → Bool

def computeNextRun (parser : CronParser) (cron : Option JsString) (everyMs : Option Int)
    (timezone : JsString) (start : Timestamp) : Option Timestamp :=
  match everyMs with
  | some everyMs => some (start + everyMs)
  | none =>
      match cron.filter fun cron => cron ≠ [] with
      | some cron => parser.next cron timezone start
      | none => none

def deriveIdempotencyKey (sha256Hex : JsString → JsString) (guildId : Option JsString)
    (kind : JsString) (idempotencyKey : Option JsString) (runAt : Option Timestamp) : JsString :=
  match idempotencyKey.filter fun key => key ≠ [] with
  | some key => guildId.getD (js "global") ++ js ":" ++ kind ++ js ":" ++ key
  | none =>
      (sha256Hex (guildId.getD (js "global") ++ js "|" ++ kind ++ js "|" ++
        (runAt.map toISOString).getD (js "na"))).take 32

structure RetryPolicy where
  attempts : Int
  type : BackoffStrategy
  delay : Int
  deriving DecidableEq

def retryPolicy (global : SchedulerGlobalConfig) (maxAttemptsOverride : Option Int) : RetryPolicy :=
  { attempts := maxAttemptsOverride.getD global.defaultMaxAttempts
    type := global.backoffStrategy, delay := global.defaultBackoffMs }

structure MaintenanceWindow where
  cron : JsString
  durationMs : Int
  deferNonCritical : Bool
  timezone : JsString
  deriving DecidableEq

namespace MaintenanceWindow

def from_ (config : MaintenanceWindowConfig) (timezone : JsString) : MaintenanceWindow :=
  { cron := config.cron, durationMs := config.durationMinutes * 60000
    deferNonCritical := config.deferNonCritical, timezone }

def startCovering (parser : CronParser) (window : MaintenanceWindow) (time : Timestamp) :
    Option Timestamp :=
  let prev := parser.prev window.cron window.timezone time
  if time - prev < window.durationMs then some prev else none

def contains (parser : CronParser) (window : MaintenanceWindow) (time : Timestamp) : Bool :=
  (startCovering parser window time).isSome

def endOfWindowAt (parser : CronParser) (window : MaintenanceWindow) (time : Timestamp) :
    Option Timestamp :=
  (startCovering parser window time).map fun start => start + window.durationMs

end MaintenanceWindow

/-- The loop of `resolveAgainstMaintenance`, for as many rounds. -/
def clearWindows (parser : CronParser) (windows : List MaintenanceWindow) :
    Nat → Timestamp × Bool → Timestamp × Bool
  | 0, resolved => resolved
  | rounds + 1, (cursor, deferred) =>
      match windows.find? fun window => window.deferNonCritical && window.contains parser cursor with
      | none => (cursor, deferred)
      | some blocking =>
          match blocking.endOfWindowAt parser cursor with
          | none => (cursor, deferred)
          | some closing => clearWindows parser windows rounds (closing, true)

def resolveAgainstMaintenance (parser : CronParser) (runAt : Timestamp) (deferrable : Bool)
    (guildConfig : SchedulerGuildConfig) : Timestamp × Bool :=
  if deferrable then
    let windows := guildConfig.maintenanceWindows.map fun window =>
      MaintenanceWindow.from_ window guildConfig.timezone
    clearWindows parser windows (windows.length * 2 + 1) (runAt, false)
  else (runAt, false)

end Scheduler
