import ArmstrongBot.Library.Glob
import ArmstrongBot.Cache.ReadYourWrites
import Mathlib.Order.Fin.Basic

/-! `deleteByPrefix` on the two levels of the cache: the memory compares the beginnings of its keys,
Redis matches its keys against a glob pattern. -/

open JsText
open Calendar (Timestamp)
open CacheService (CacheEntry)

namespace TwoLevelCache

variable {V : Type}

def redisSigns : Glob.Signs CodeUnit :=
  { star := unit 42, question := unit 63, opening := unit 91, closing := unit 93, caret := unit 94
    dash := unit 45, backslash := unit 92, distinct := by decide }

/-- The pattern of `RedisCacheStore.deleteByPrefix`. -/
def patternOf (start : JsString) : JsString := start ++ js "*"

/-- `KEYS` -/
def redisKeys (l2 : JsMap JsString (CacheEntry (Option V))) (pattern : JsString) : List JsString :=
  (l2.entries.map Prod.fst).filter (Glob.isMatch redisSigns pattern)

/-- `DEL` -/
def redisDel (l2 : JsMap JsString (CacheEntry (Option V))) (keys : List JsString) :
    JsMap JsString (CacheEntry (Option V)) :=
  keys.foldl JsMap.delete l2

/-- `RedisCacheStore.deleteByPrefix` -/
def redisDeleteByPrefix (l2 : JsMap JsString (CacheEntry (Option V))) (start : JsString) :
    Nat × JsMap JsString (CacheEntry (Option V)) :=
  let keys := redisKeys l2 (patternOf start)
  if keys.length = 0 then (0, l2) else (keys.length, redisDel l2 keys)

def deleteByPrefix (cache : TwoLevelCache V) (start : JsString) : Nat × TwoLevelCache V :=
  let l1 := cache.l1.deleteByPrefix start
  let l2 := redisDeleteByPrefix cache.l2 start
  (max l1.1 l2.1, { l1 := l1.2, l2 := l2.2 })

/-- On both levels the keys that begin with the prefix are gone, and no other key is. -/
def DeletesPrefix (cache : TwoLevelCache V) (start : JsString) : Prop :=
  ∀ key,
    (cache.deleteByPrefix start).2.l1.lookup key =
      (if start.isPrefixOf key then none else cache.l1.lookup key) ∧
    (cache.deleteByPrefix start).2.l2.get key =
      if start.isPrefixOf key then none else cache.l2.get key

/-- No letter of the prefix stands for more than itself in a pattern. -/
def Literal (start : JsString) : Prop := ∀ letter ∈ start, letter ∉ redisSigns.special

theorem get_redisDel (l2 : JsMap JsString (CacheEntry (Option V))) (keys : List JsString)
    (key : JsString) :
    (redisDel l2 keys).get key = if key ∈ keys then none else l2.get key := by
  unfold redisDel
  induction keys generalizing l2 with
  | nil => simp
  | cons first keys ih =>
      rw [List.foldl_cons, ih, JsMap.get_delete_eq]
      by_cases isFirst : key = first
      · simp [isFirst]
      · simp [isFirst]

theorem get_redisDeleteByPrefix (l2 : JsMap JsString (CacheEntry (Option V)))
    (start key : JsString) :
    (redisDeleteByPrefix l2 start).2.get key =
      if Glob.isMatch redisSigns (patternOf start) key then none else l2.get key := by
  have deleted :
      (redisDeleteByPrefix l2 start).2 = redisDel l2 (redisKeys l2 (patternOf start)) := by
    simp only [redisDeleteByPrefix]
    split
    · rename_i nothing
      rw [List.eq_nil_of_length_eq_zero nothing]
      rfl
    · rfl
  rw [deleted, get_redisDel]
  cases found : l2.get key with
  | none => simp
  | some entry =>
      have isThere : key ∈ l2.entries.map Prod.fst :=
        List.mem_map_of_mem (JsMap.get_eq_some.mp found)
      simp only [redisKeys, List.mem_filter, isThere, true_and]

theorem redis_deletes_iff (start : JsString) :
    (∀ (l2 : JsMap JsString (CacheEntry (Option V))) key,
      (redisDeleteByPrefix l2 start).2.get key =
        if start.isPrefixOf key then none else l2.get key) ↔ Literal start := by
  rw [Literal, ← Glob.isMatch_star_iff start]
  constructor
  · intro deletes key
    let entry : CacheEntry (Option V) := { value := none, storedAt := 0, expiresAt := 1 }
    have deleted := deletes (JsMap.empty.set key entry) key
    rw [get_redisDeleteByPrefix, JsMap.get_set, if_pos rfl] at deleted
    change Glob.isMatch redisSigns (patternOf start) key = _
    by_cases matched : Glob.isMatch redisSigns (patternOf start) key = true
    · rw [if_pos matched] at deleted
      by_cases begins : start.isPrefixOf key = true
      · rw [matched, begins]
      · rw [if_neg begins] at deleted
        cases deleted
    · rw [if_neg matched] at deleted
      by_cases begins : start.isPrefixOf key = true
      · rw [if_pos begins] at deleted
        cases deleted
      · rw [Bool.eq_false_iff.mpr matched, Bool.eq_false_iff.mpr begins]
  · intro exact_ l2 key
    rw [get_redisDeleteByPrefix, ← exact_ key]
    rfl

/-- Whatever was done with the memory before and whatever Redis holds, `deleteByPrefix` removes
the keys that begin with the prefix and no others just where the prefix has no sign in it. -/
theorem deletes_prefix_iff (start : JsString) :
    (∀ maxItems operations l2, DeletesPrefix (V := V)
      { l1 := (MemoryCacheStore.new maxItems).after operations, l2 } start) ↔ Literal start := by
  rw [← redis_deletes_iff (V := V)]
  constructor
  · intro deletes l2 key
    exact (deletes 0 [] l2 key).2
  · intro deletes maxItems operations l2 key
    have valid := MemoryCacheStore.valid_after (V := Option V) maxItems operations
    exact ⟨valid.lookup_deleteByPrefix start key, deletes l2 key⟩

/-- The question mark of one key stands for any letter of another. -/
theorem other_key_deleted :
    ¬ DeletesPrefix ({ l1 := (MemoryCacheStore.new 10000).after []
                       l2 := JsMap.empty.set (js "notes")
                         { value := some 1, storedAt := 0, expiresAt := 60000 } } : TwoLevelCache Nat)
      (js "note?") := by
  intro deletes
  exact absurd (deletes (js "notes")).2 (by decide +kernel)

end TwoLevelCache
