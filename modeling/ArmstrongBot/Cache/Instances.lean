import ArmstrongBot.Library.Tiers
import ArmstrongBot.Library.Calendar

/-! `CacheService` in several processes: each has a `MemoryCacheStore` of its own, and all of them
have one Redis. -/

namespace CacheService

open JsText
open Calendar (Timestamp)

variable {V : Type}

structure CacheEntry (V : Type) where
  value : V
  storedAt : Timestamp
  expiresAt : Timestamp
  deriving DecidableEq

abbrev Levels (V : Type) := Tiers JsString (CacheEntry V)

/-- `MemoryCacheStore.get`: an entry that is over is evicted. -/
def memoryGet (levels : Levels V) (process : Nat) (key : JsString) (now : Timestamp) :
    Option (CacheEntry V) × Levels V :=
  match levels.get (.own process, key) with
  | some entry =>
      if entry.expiresAt ≤ now then (none, levels.delete (.own process, key))
      else (some entry, levels)
  | none => (none, levels)

/-- `RedisCacheStore.get`, which answers `null` where the command fails. -/
def redisGet (levels : Levels V) (key : JsString) (fails : Bool) : Option (CacheEntry V) :=
  if fails then none else levels.get (.shared, key)

/-- What `set` without jitter stores. -/
def entryOf (value : V) (ttlSeconds : Nat) (now : Timestamp) : CacheEntry V :=
  { value, storedAt := now, expiresAt := now + ttlSeconds * 1000 }

/-- `RedisCacheStore.set`, once its command takes effect; a failure is only logged. -/
def redisSet (levels : Levels V) (key : JsString) (entry : CacheEntry V) (fails : Bool) :
    Levels V :=
  if fails then levels else levels.set (.shared, key) entry

/-- `RedisCacheStore.delete`, in the same way. -/
def redisDelete (levels : Levels V) (key : JsString) (fails : Bool) : Levels V :=
  if fails then levels else levels.delete (.shared, key)

variable {levels : Levels V} {holds : JsString → CacheEntry V → Prop} {key : JsString}

theorem memoryGet_hit {process : Nat} {now : Timestamp} {entry : CacheEntry V}
    (hit : (memoryGet levels process key now).1 = some entry) :
    levels.get (.own process, key) = some entry := by
  unfold memoryGet at hit
  split at hit
  · rename_i found
    split at hit
    · cases hit
    · rw [found]
      exact hit
  · cases hit

theorem every_memoryGet (every : Tiers.Every holds levels) (process : Nat) (key : JsString)
    (now : Timestamp) :
    Tiers.Every holds (memoryGet levels process key now).2 := by
  unfold memoryGet
  split
  · split
    · exact every.delete _
    · exact every
  · exact every

theorem redisGet_hit {fails : Bool} {entry : CacheEntry V}
    (hit : redisGet levels key fails = some entry) : levels.get (.shared, key) = some entry := by
  cases fails with
  | true => cases hit
  | false => exact hit

theorem every_redisSet (every : Tiers.Every holds levels) {entry : CacheEntry V}
    (meets : holds key entry) (fails : Bool) :
    Tiers.Every holds (redisSet levels key entry fails) := by
  cases fails with
  | true => exact every
  | false => exact every.set .shared meets

theorem every_redisDelete (every : Tiers.Every holds levels) (fails : Bool) :
    Tiers.Every holds (redisDelete levels key fails) := by
  cases fails with
  | true => exact every
  | false => exact every.delete _

end CacheService
