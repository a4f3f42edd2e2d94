import ArmstrongBot.Cache.MemoryStore
import ArmstrongBot.Library.StepMachine

/-! `CacheService` over its two stores, one call after the other: what a `get` returns beside a
plain map of what was set. Values are JSON values, which Redis gives back as they were stored;
`none` is `null`. -/

open JsText
open Calendar (Timestamp)
open CacheService (CacheEntry)

structure TwoLevelCache (V : Type) where
  l1 : MemoryCacheStore (Option V)
  l2 : JsMap JsString (CacheEntry (Option V))

namespace TwoLevelCache

open StepMachine

variable {V : Type}

/-- `jitter` is what is drawn of the jitter, in milliseconds. -/
structure CacheSetOptions where
  ttlSeconds : Int
  jitter : Nat
  l2Only : Bool

def CacheSetOptions.ttlMs (options : CacheSetOptions) : Int :=
  options.ttlSeconds * 1000 + options.jitter

def empty (maxItems : Nat) : TwoLevelCache V := { l1 := .new maxItems, l2 := JsMap.empty }

/-- `RedisCacheStore.set` -/
def redisSet (l2 : JsMap JsString (CacheEntry (Option V))) (key : JsString)
    (entry : CacheEntry (Option V)) (now : Timestamp) : JsMap JsString (CacheEntry (Option V)) :=
  if entry.expiresAt - now ≤ 0 then l2 else l2.set key entry

def get (cache : TwoLevelCache V) (key : JsString) (now : Timestamp) :
    Option V × TwoLevelCache V :=
  let l1 := (cache.l1.get key now).2
  match (cache.l1.get key now).1 with
  | some entry => (entry.value, { cache with l1 })
  | none =>
      match cache.l2.get key with
      | some entry => (entry.value, { cache with l1 := l1.set key entry })
      | none => (none, { cache with l1 })

def set (cache : TwoLevelCache V) (key : JsString) (value : Option V) (options : CacheSetOptions)
    (now : Timestamp) : TwoLevelCache V :=
  let entry := { value, storedAt := now, expiresAt := now + options.ttlMs }
  { l1 := if options.l2Only then cache.l1 else cache.l1.set key entry
    l2 := redisSet cache.l2 key entry now }

/-- The loader gives a value or throws; what is returned is the value, or what was thrown. -/
def getOrSet (cache : TwoLevelCache V) (key : JsString) (loader : Option (Option V))
    (options : CacheSetOptions) (now : Timestamp) : Option (Option V) × TwoLevelCache V :=
  let asked := (cache.get key now).2
  match (cache.get key now).1 with
  | some value => (some (some value), asked)
  | none =>
      match loader with
      | some value => (some value, asked.set key value options now)
      | none => (none, asked)

def delete (cache : TwoLevelCache V) (key : JsString) : TwoLevelCache V :=
  { l1 := cache.l1.delete key, l2 := cache.l2.delete key }

inductive Operation (V : Type)
  | get (key : JsString)
  | set (key : JsString) (value : Option V) (options : CacheSetOptions)
  | getOrSet (key : JsString) (loader : Option (Option V)) (options : CacheSetOptions)
  | delete (key : JsString)

structure Call (V : Type) where
  operation : Operation V
  now : Timestamp

/-- The cache, and the plain map of what was set and not deleted since. -/
structure World (V : Type) where
  cache : TwoLevelCache V
  plain : JsMap JsString (Option V)

def World.start (maxItems : Nat) : World V := { cache := empty maxItems, plain := JsMap.empty }

/-- The value of the last set of the key not followed by a delete, and `null` without one. -/
def World.read (world : World V) (key : JsString) : Option V := (world.plain.get key).join

def plainStep (plain : JsMap JsString (Option V)) : Operation V → JsMap JsString (Option V)
  | .get _ => plain
  | .set key value _ => plain.set key value
  | .getOrSet key loader _ =>
      match (plain.get key).join, loader with
      | none, some value => plain.set key value
      | _, _ => plain
  | .delete key => plain.delete key

def cacheStep (cache : TwoLevelCache V) (call : Call V) : TwoLevelCache V :=
  match call.operation with
  | .get key => (cache.get key call.now).2
  | .set key value options => cache.set key value options call.now
  | .getOrSet key loader options => (cache.getOrSet key loader options call.now).2
  | .delete key => cache.delete key

def Operation.lasts : Operation V → Bool
  | .set _ _ options => 0 < options.ttlMs
  | .getOrSet _ _ options => 0 < options.ttlMs
  | _ => true

/-- No entry of the two stores is over. -/
def alive (cache : TwoLevelCache V) (now : Timestamp) : Bool :=
  (cache.l1.map.entries.all fun item => (cache.l1.lookup item.1).all fun entry =>
    now < entry.expiresAt) &&
  cache.l2.entries.all fun item => now < item.2.expiresAt

/-- Runs in which no entry expires: a call is made while all entries last, and what it stores
lasts. -/
def step (world : World V) (call : Call V) : Option (World V) :=
  if world.cache.alive call.now && call.operation.lasts then
    some { cache := cacheStep world.cache call, plain := plainStep world.plain call.operation }
  else none

def ReadsBack (world : World V) : Prop :=
  ∀ key now, world.cache.alive now = true → (world.cache.get key now).1 = world.read key

/-- A set that leaves the memory alone finds nothing else under the key in it; of a `getOrSet`
this is a question where it loads a value over a cached `null`. -/
def KeepsMemory (world : World V) (call : Call V) : Prop :=
  match call.operation with
  | .set key value options => options.l2Only = true →
      ∀ entry, world.cache.l1.lookup key = some entry → entry.value = value
  | .getOrSet key (some (some _)) options => options.l2Only = true →
      (∀ entry, world.cache.l1.lookup key = some entry → entry.value ≠ none) ∧
      (world.cache.l1.lookup key = none → 0 < world.cache.l1.maxItems →
        ∀ entry, world.cache.l2.get key = some entry → entry.value ≠ none)
  | _ => True

variable {cache : TwoLevelCache V} {world : World V} {key : JsString} {now : Timestamp}

theorem alive_iff : cache.alive now = true ↔
    (∀ key entry, cache.l1.lookup key = some entry → now < entry.expiresAt) ∧
      ∀ key entry, cache.l2.get key = some entry → now < entry.expiresAt := by
  unfold alive
  rw [Bool.and_eq_true, List.all_eq_true, List.all_eq_true]
  refine and_congr ?_ ?_
  · constructor
    · intro every key entry found
      obtain ⟨⟨ref, _⟩, isFound, rfl⟩ := Option.map_eq_some_iff.mp found
      obtain ⟨_, known, _⟩ := Option.bind_eq_some_iff.mp isFound
      have lasts := every (key, _) (JsMap.get_eq_some.mp known)
      rw [found] at lasts
      simpa using lasts
    · intro every item member
      cases found : cache.l1.lookup item.1 with
      | none => rfl
      | some entry => simpa using every item.1 entry found
  · constructor
    · intro every key entry found
      simpa using every (key, entry) (JsMap.get_eq_some.mp found)
    · intro every item member
      simpa using every item.1 item.2 (JsMap.get_eq_some.mpr member)

theorem get_hit {entry : CacheEntry (Option V)} (alive : cache.alive now = true)
    (found : cache.l1.lookup key = some entry) :
    cache.get key now = (entry.value, { cache with l1 := (cache.l1.get key now).2 }) := by
  have lasts := (alive_iff.mp alive).1 key entry found
  have answer : (cache.l1.get key now).1 = some entry := by
    rw [MemoryCacheStore.get_answer, found]
    simp [Option.filter, not_le_of_gt lasts]
  unfold get
  rw [answer]

theorem get_miss (missing : cache.l1.lookup key = none) :
    cache.get key now =
      match cache.l2.get key with
      | some entry =>
          (entry.value, { cache with l1 := (cache.l1.get key now).2.set key entry })
      | none => (none, { cache with l1 := (cache.l1.get key now).2 }) := by
  have answer : (cache.l1.get key now).1 = none := by
    rw [MemoryCacheStore.get_answer, missing]
    rfl
  unfold get
  rw [answer]

theorem get_l2 (cache : TwoLevelCache V) (key : JsString) (now : Timestamp) :
    (cache.get key now).2.l2 = cache.l2 := by
  unfold get
  split
  · rfl
  · split <;> rfl

/-- The memory holds only what was set last; Redis holds all of it. -/
structure Inv (world : World V) : Prop where
  valid : world.cache.l1.Valid
  memory : ∀ key entry, world.cache.l1.lookup key = some entry → entry.value = world.read key
  redis : ∀ key, (world.cache.l2.get key).map CacheEntry.value = world.plain.get key

theorem Inv.start (maxItems : Nat) : Inv (World.start maxItems : World V) where
  valid := ⟨[], [], MemoryCacheStore.represents_new maxItems, Nat.zero_le _⟩
  memory := by
    intro key entry found
    cases found
  redis := fun _ => rfl

theorem Inv.read (inv : Inv world) (key : JsString) :
    ((world.cache.l2.get key).map CacheEntry.value).join = world.read key := by
  rw [inv.redis, World.read]

theorem Inv.reads (inv : Inv world) (alive : world.cache.alive now = true) (key : JsString) :
    (world.cache.get key now).1 = world.read key := by
  cases found : world.cache.l1.lookup key with
  | some entry =>
      rw [get_hit alive found]
      exact inv.memory key entry found
  | none =>
      rw [get_miss found, ← inv.read]
      cases world.cache.l2.get key with
      | none => rfl
      | some entry => rfl

theorem lookup_get (valid : cache.l1.Valid) {other : JsString} {entry : CacheEntry (Option V)}
    (found : (cache.get key now).2.l1.lookup other = some entry) :
    cache.l1.lookup other = some entry ∨ other = key ∧ cache.l2.get key = some entry := by
  have asked : (cache.l1.get key now).2.Valid := valid.step (.get key now)
  have earlier : ∀ {entry}, (cache.l1.get key now).2.lookup other = some entry →
      cache.l1.lookup other = some entry := by
    intro entry found
    rw [valid.lookup_get] at found
    split at found
    · rename_i same
      rw [same]
      exact (Option.filter_eq_some_iff.mp found).1
    · exact found
  unfold get at found
  split at found
  · exact .inl (earlier found)
  · split at found
    · rename_i promoted isThere
      have kept := asked.lookup_set found
      split at kept
      · rename_i same
        rw [kept]
        exact .inr ⟨same, isThere⟩
      · exact .inl (earlier kept)
    · exact .inl (earlier found)

theorem get_valid (valid : cache.l1.Valid) (key : JsString) (now : Timestamp) :
    (cache.get key now).2.l1.Valid := by
  have asked : (cache.l1.get key now).2.Valid := valid.step (.get key now)
  unfold get
  split
  · exact asked
  · split
    · exact asked.step (.set key _)
    · exact asked

theorem get_alive (valid : cache.l1.Valid) (alive : cache.alive now = true) (key : JsString) :
    (cache.get key now).2.alive now = true := by
  refine alive_iff.mpr ⟨fun other entry found => ?_, ?_⟩
  · rcases lookup_get valid found with earlier | ⟨_, inRedis⟩
    · exact (alive_iff.mp alive).1 other entry earlier
    · exact (alive_iff.mp alive).2 key entry inRedis
  · rw [get_l2]
    exact (alive_iff.mp alive).2

theorem Inv.get (inv : Inv world) (key : JsString) (now : Timestamp) :
    Inv { world with cache := (world.cache.get key now).2 } where
  valid := get_valid inv.valid key now
  memory := by
    intro other entry found
    rcases lookup_get inv.valid found with earlier | ⟨rfl, inRedis⟩
    · exact inv.memory other entry earlier
    · rw [World.read, ← inv.redis, inRedis]
      rfl
  redis := by
    intro other
    rw [get_l2]
    exact inv.redis other

theorem redisSet_lasts {options : CacheSetOptions} {value : Option V} (lasts : 0 < options.ttlMs)
    (l2 : JsMap JsString (CacheEntry (Option V))) :
    redisSet l2 key { value, storedAt := now, expiresAt := now + options.ttlMs } now =
      l2.set key { value, storedAt := now, expiresAt := now + options.ttlMs } := by
  have remains : ¬ now + options.ttlMs - now ≤ 0 := by
    rw [Int.add_comm, Int.add_sub_cancel]
    exact not_le_of_gt lasts
  rw [redisSet, if_neg remains]

theorem World.read_set (world : World V) (cache : TwoLevelCache V) (key other : JsString)
    (value : Option V) : World.read { cache, plain := world.plain.set key value } other =
      if other = key then value else world.read other := by
  rw [World.read, JsMap.get_set]
  split <;> rfl

theorem World.read_delete (world : World V) (cache : TwoLevelCache V) (key other : JsString) :
    World.read { cache, plain := world.plain.delete key } other =
      if other = key then none else world.read other := by
  rw [World.read, JsMap.get_delete_eq]
  split <;> rfl

theorem Inv.set (inv : Inv world) {options : CacheSetOptions} {value : Option V}
    (lasts : 0 < options.ttlMs)
    (keeps : options.l2Only = true →
      ∀ entry, world.cache.l1.lookup key = some entry → entry.value = value) :
    Inv { cache := world.cache.set key value options now, plain := world.plain.set key value } := by
  refine { valid := ?_, memory := ?_, redis := ?_ }
  · simp only [TwoLevelCache.set]
    split
    · exact inv.valid
    · exact inv.valid.step (.set key _)
  · intro other entry found
    rw [World.read_set]
    simp only [TwoLevelCache.set] at found
    split at found
    · rename_i only
      split
      · rename_i same
        exact keeps only entry (same ▸ found)
      · exact inv.memory other entry found
    · have stored := inv.valid.lookup_set found
      split at stored
      · rename_i same
        rw [stored, if_pos same]
      · rename_i different
        rw [if_neg different]
        exact inv.memory other entry stored
  · intro other
    simp only [TwoLevelCache.set, redisSet_lasts lasts, JsMap.get_set]
    split
    · rfl
    · exact inv.redis other

theorem Inv.delete (inv : Inv world) (key : JsString) :
    Inv { cache := world.cache.delete key, plain := world.plain.delete key } where
  valid := inv.valid.step (.delete key)
  memory := by
    intro other entry found
    rw [TwoLevelCache.delete, inv.valid.lookup_delete] at found
    rw [World.read_delete]
    split at found
    · cases found
    · rename_i different
      rw [if_neg different]
      exact inv.memory other entry found
  redis := by
    intro other
    simp only [TwoLevelCache.delete, JsMap.get_delete_eq]
    split
    · rfl
    · exact inv.redis other

theorem get_maxItems (cache : TwoLevelCache V) (key : JsString) (now : Timestamp) :
    (cache.get key now).2.l1.maxItems = cache.l1.maxItems := by
  have asked : (cache.l1.get key now).2.maxItems = cache.l1.maxItems :=
    MemoryCacheStore.step_maxItems cache.l1 (.get key now)
  unfold get
  split
  · exact asked
  · split
    · exact (MemoryCacheStore.set_maxItems _ key _).trans asked
    · exact asked

theorem Inv.getOrSet (inv : Inv world) (alive : world.cache.alive now = true)
    {loader : Option (Option V)} {options : CacheSetOptions} (lasts : 0 < options.ttlMs)
    (keeps : KeepsMemory world { operation := .getOrSet key loader options, now }) :
    Inv { cache := (world.cache.getOrSet key loader options now).2
          plain := plainStep world.plain (.getOrSet key loader options) } := by
  have asked := inv.get key now
  have isNull : ∀ entry, world.cache.l2.get key = some entry → entry.value = world.read key := by
    intro entry inRedis
    rw [← inv.read, inRedis]
    rfl
  unfold TwoLevelCache.getOrSet
  simp only [plainStep, inv.reads alive key]
  change Inv { plain := match world.read key, loader with
    | none, some value => world.plain.set key value
    | _, _ => world.plain, cache := _ }
  cases isRead : world.read key with
  | some value => exact asked
  | none =>
      cases loader with
      | none => exact asked
      | some value =>
          refine asked.set lasts fun only entry found => ?_
          cases value with
          | none => exact (asked.memory key entry found).trans isRead
          | some value =>
              obtain ⟨notNull, notRedis⟩ := keeps only
              -- The null would have to be in the memory before the call or to come from Redis.
              have missing : world.cache.l1.lookup key = none := by
                cases there : world.cache.l1.lookup key with
                | none => rfl
                | some old =>
                    exact absurd ((inv.memory key old there).trans isRead) (notNull old there)
              rcases lookup_get inv.valid found with earlier | ⟨_, inRedis⟩
              · rw [missing] at earlier
                cases earlier
              · rcases Nat.eq_zero_or_pos world.cache.l1.maxItems with isEmpty | positive
                · have nothing := (get_valid inv.valid key now).lookup_of_empty
                    ((get_maxItems world.cache key now).trans isEmpty) key
                  rw [nothing] at found
                  cases found
                · exact absurd ((isNull entry inRedis).trans isRead)
                    (notRedis missing positive entry inRedis)

theorem Inv.step (inv : Inv world) {call : Call V} (keeps : KeepsMemory world call)
    {next : World V} (taken : step world call = some next) : Inv next := by
  unfold TwoLevelCache.step at taken
  split at taken
  · rename_i enabled
    obtain ⟨alive, lasts⟩ := Bool.and_eq_true_iff.mp enabled
    obtain rfl := Option.some.inj taken
    obtain ⟨operation, now⟩ := call
    cases operation with
    | get key => exact inv.get key now
    | set key value options => exact inv.set (of_decide_eq_true lasts) keeps
    | getOrSet key loader options => exact inv.getOrSet alive (of_decide_eq_true lasts) keeps
    | delete key => exact inv.delete key
  · cases taken

theorem set_only_alive {options : CacheSetOptions} (alive : cache.alive now = true)
    (only : options.l2Only = true) (lasts : 0 < options.ttlMs) (value : Option V) :
    (cache.set key value options now).alive now = true := by
  refine alive_iff.mpr ⟨fun other entry found => ?_, fun other entry found => ?_⟩
  · rw [TwoLevelCache.set, if_pos only] at found
    exact (alive_iff.mp alive).1 other entry found
  · simp only [TwoLevelCache.set, redisSet_lasts lasts, JsMap.get_set] at found
    split at found
    · obtain rfl := Option.some.inj found
      exact Int.lt_add_of_pos_right now lasts
    · exact (alive_iff.mp alive).2 other entry found

theorem get_set_only {options : CacheSetOptions} (alive : cache.alive now = true)
    (only : options.l2Only = true) (lasts : 0 < options.ttlMs) (value : Option V)
    {entry : CacheEntry (Option V)} (found : cache.l1.lookup key = some entry) :
    ((cache.set key value options now).get key now).1 = entry.value := by
  have unchanged : (cache.set key value options now).l1 = cache.l1 := by
    rw [TwoLevelCache.set, if_pos only]
  rw [get_hit (set_only_alive alive only lasts value) (unchanged ▸ found)]

/-- A `getOrSet` that found `null`, and left it in the memory below the value it loaded, is not
read back. -/
theorem Inv.not_readsBack (inv : Inv world) (alive : world.cache.alive now = true)
    {options : CacheSetOptions} (only : options.l2Only = true) (lasts : 0 < options.ttlMs)
    {value : V} {entry : CacheEntry (Option V)} (asked : (world.cache.get key now).1 = none)
    (left : (world.cache.get key now).2.l1.lookup key = some entry) (isNull : entry.value = none) :
    ¬ ReadsBack { cache := (world.cache.getOrSet key (some (some value)) options now).2
                  plain := plainStep world.plain (.getOrSet key (some (some value)) options) } := by
  intro reads
  have stays := get_alive inv.valid alive key
  have isRead : world.read key = none := (inv.reads alive key).symm.trans asked
  have stored : (world.cache.getOrSet key (some (some value)) options now).2 =
      (world.cache.get key now).2.set key (some value) options now := by
    rw [TwoLevelCache.getOrSet, asked]
  have isSet : plainStep world.plain (.getOrSet key (some (some value)) options) =
      world.plain.set key (some value) := by
    simp only [plainStep]
    change (match world.read key, some (some value) with
      | none, some value => world.plain.set key value
      | _, _ => world.plain) = _
    rw [isRead]
  rw [stored, isSet] at reads
  have answer := reads key now (set_only_alive stays only lasts (some value))
  rw [World.read_set, if_pos rfl, get_set_only stays only lasts (some value) left, isNull] at answer
  cases answer

/-- The condition is necessary: a step against it is followed by a `get` of what was there
before. -/
theorem Inv.keeps_of_reads (inv : Inv world) {call : Call V} {next : World V}
    (taken : TwoLevelCache.step world call = some next) (reads : ReadsBack next) :
    KeepsMemory world call := by
  unfold TwoLevelCache.step at taken
  split at taken
  · rename_i enabled
    obtain ⟨alive, lasts⟩ := Bool.and_eq_true_iff.mp enabled
    obtain rfl := Option.some.inj taken
    obtain ⟨operation, now⟩ := call
    cases operation with
    | get key => trivial
    | delete key => trivial
    | set key value options =>
        intro only entry found
        have lasts : 0 < options.ttlMs := of_decide_eq_true lasts
        have answer := reads key now (set_only_alive alive only lasts value)
        change ((world.cache.set key value options now).get key now).1 = _ at answer
        rw [get_set_only alive only lasts value found] at answer
        rw [answer]
        change World.read { cache := _, plain := world.plain.set key value } key = value
        rw [World.read_set, if_pos rfl]
    | getOrSet key loader options =>
        cases loader with
        | none => trivial
        | some value =>
            cases value with
            | none => trivial
            | some value =>
                intro only
                have lasts : 0 < options.ttlMs := of_decide_eq_true lasts
                refine ⟨fun entry found isNull => ?_, fun missing positive entry inRedis isNull => ?_⟩
                · have asked := get_hit alive found
                  have left := inv.valid.lookup_get key key now
                  have remains := not_le_of_gt ((alive_iff.mp alive).1 key entry found)
                  rw [if_pos rfl, found, Option.filter, decide_eq_false remains] at left
                  refine inv.not_readsBack alive only lasts ?_ ?_ isNull reads
                  · rw [asked]
                    exact isNull
                  · rw [asked]
                    exact left
                · have asked : world.cache.get key now = _ := get_miss missing
                  have isValid : (world.cache.l1.get key now).2.Valid :=
                    inv.valid.step (.get key now)
                  have limit : (world.cache.l1.get key now).2.maxItems = world.cache.l1.maxItems :=
                    MemoryCacheStore.step_maxItems world.cache.l1 (.get key now)
                  rw [inRedis] at asked
                  refine inv.not_readsBack alive only lasts ?_ ?_ isNull reads
                  · rw [asked]
                    exact isNull
                  · rw [asked]
                    exact isValid.lookup_set_self (limit ▸ positive) key entry
  · cases taken

/-- In every run in which no entry expires, every `get` returns what was set last just when no set
leaves another value under its key in the memory, whatever the memory evicts. -/
theorem reads_back_iff (maxItems : Nat) (calls : List (Call V)) :
    Always step ReadsBack (World.start maxItems) calls ↔
      Guarded step KeepsMemory (World.start maxItems) calls :=
  always_iff_guarded step (fun _ inv key _ alive => inv.reads alive key)
    (fun _ _ _ inv keeps taken => inv.step keeps taken)
    (fun _ _ _ inv taken reads => inv.keeps_of_reads taken reads) (Inv.start maxItems) calls

/-- A key is set on both levels and set again in Redis alone: the first value is still read. -/
theorem l2Only_not_read :
    ¬ Always step ReadsBack (World.start 10000 : World Nat)
      [{ operation := .set (js "key") (some 1) { ttlSeconds := 60, jitter := 0, l2Only := false }
         now := 0 },
       { operation := .set (js "key") (some 2) { ttlSeconds := 60, jitter := 0, l2Only := true }
         now := 0 }] := by
  refine not_always step (fun world => !world.cache.alive 0 ||
    decide ((world.cache.get (js "key") 0).1 = world.read (js "key"))) ?_ (by decide +kernel)
  intro world reads
  cases alive : world.cache.alive 0 with
  | false => rfl
  | true => simpa using reads (js "key") 0 alive

end TwoLevelCache
