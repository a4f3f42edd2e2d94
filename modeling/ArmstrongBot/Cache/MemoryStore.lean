import ArmstrongBot.Library.LinkedList
import ArmstrongBot.Library.Lru
import ArmstrongBot.Cache.Instances

/-! `MemoryCacheStore`: a map from keys to the nodes of a doubly linked list, kept in the order in
which they were last used. -/

open JsText
open Calendar (Timestamp)
open CacheService (CacheEntry)

/-- A node without its links, which the list has. -/
structure LruNode (V : Type) where
  key : JsString
  entry : CacheEntry V

/-- A reference to a node is its place among all the nodes there ever were. -/
structure MemoryCacheStore (V : Type) where
  maxItems : Nat
  nodes : List (LruNode V)
  map : JsMap JsString Nat
  links : LinkedList Nat
  hits : Nat
  misses : Nat
  evictions : Nat

namespace MemoryCacheStore

variable {V : Type}

def new (maxItems : Nat) : MemoryCacheStore V :=
  { maxItems, nodes := [], map := JsMap.empty, links := .empty, hits := 0, misses := 0
    evictions := 0 }

def find (store : MemoryCacheStore V) (key : JsString) : Option (Nat × CacheEntry V) :=
  (store.map.get key).bind fun ref => (store.nodes[ref]?).map fun node => (ref, node.entry)

def evict (store : MemoryCacheStore V) (ref : Nat) : MemoryCacheStore V :=
  { store with
    map := match store.nodes[ref]? with
      | some node => store.map.delete node.key
      | none => store.map
    links := store.links.removeNode ref
    evictions := store.evictions + 1 }

def evictTail (store : MemoryCacheStore V) : MemoryCacheStore V :=
  match store.links.tail with
  | some ref => store.evict ref
  | none => store

def moveToHead (store : MemoryCacheStore V) (ref : Nat) : MemoryCacheStore V :=
  { store with links := store.links.moveToHead ref }

def get (store : MemoryCacheStore V) (key : JsString) (now : Timestamp) :
    Option (CacheEntry V) × MemoryCacheStore V :=
  match store.find key with
  | none => (none, { store with misses := store.misses + 1 })
  | some (ref, entry) =>
      if entry.expiresAt ≤ now then
        (none, { store.evict ref with misses := store.misses + 1 })
      else (some entry, { store.moveToHead ref with hits := store.hits + 1 })

def set (store : MemoryCacheStore V) (key : JsString) (entry : CacheEntry V) :
    MemoryCacheStore V :=
  match store.map.get key with
  | some ref =>
      { store with nodes := store.nodes.modify ref fun node => { node with entry } }.moveToHead ref
  | none =>
      let ref := store.nodes.length
      let store :=
        { store with
          nodes := store.nodes ++ [{ key, entry }]
          map := store.map.set key ref
          links := store.links.addToHead ref }
      if store.maxItems < store.map.entries.length then store.evictTail else store

def delete (store : MemoryCacheStore V) (key : JsString) : MemoryCacheStore V :=
  match store.map.get key with
  | some ref => store.evict ref
  | none => store

/-- One turn of the loop of `deleteByPrefix`. The map loses no key but the one at hand, so that
the loop goes over the entries that were there when it began. -/
def deleteIfPrefix (start : JsString) (counted : Nat × MemoryCacheStore V)
    (entry : JsString × Nat) : Nat × MemoryCacheStore V :=
  if start.isPrefixOf entry.1 then (counted.1 + 1, counted.2.evict entry.2) else counted

def deleteByPrefix (store : MemoryCacheStore V) (start : JsString) : Nat × MemoryCacheStore V :=
  store.map.entries.foldl (deleteIfPrefix start) (0, store)

def has (store : MemoryCacheStore V) (key : JsString) (now : Timestamp) :
    Bool × MemoryCacheStore V :=
  match store.find key with
  | none => (false, store)
  | some (ref, entry) =>
      if entry.expiresAt ≤ now then (false, store.evict ref) else (true, store)

inductive Operation (V : Type)
  | get (key : JsString) (now : Timestamp)
  | set (key : JsString) (entry : CacheEntry V)
  | delete (key : JsString)
  | deleteByPrefix (start : JsString)
  | has (key : JsString) (now : Timestamp)

def step (store : MemoryCacheStore V) :
    Operation V → Lru.Answer (CacheEntry V) × MemoryCacheStore V
  | .get key now => ((.found (store.get key now).1), (store.get key now).2)
  | .set key entry => (.done, store.set key entry)
  | .delete key => (.done, store.delete key)
  | .deleteByPrefix start => (.removed (store.deleteByPrefix start).1, (store.deleteByPrefix start).2)
  | .has key now => (.there (store.has key now).1, (store.has key now).2)

/-- What the operation asks of a map with expiry. -/
def Operation.meaning : Operation V → Lru.Operation JsString (CacheEntry V)
  | .get key now => .get key fun entry => entry.expiresAt ≤ now
  | .set key entry => .set key entry
  | .delete key => .delete key
  | .deleteByPrefix start => .deleteWhere fun key => start.isPrefixOf key
  | .has key now => .has key fun entry => entry.expiresAt ≤ now

/-- The node stands for the item, and the map knows it under the item's key. -/
def Holds (store : MemoryCacheStore V) (ref : Nat) (item : JsString × CacheEntry V) : Prop :=
  store.map.get item.1 = some ref ∧ store.nodes[ref]? = some { key := item.1, entry := item.2 }

/-- The list holds these items, and the map has no others. -/
structure Represents (store : MemoryCacheStore V) (order : List Nat)
    (items : Lru.Recency JsString (CacheEntry V)) : Prop where
  carries : store.links.Carries store.Holds order items
  only : ∀ key ref, store.map.get key = some ref → ∃ entry, (key, entry) ∈ items

variable {store : MemoryCacheStore V} {order : List Nat}
  {items : Lru.Recency JsString (CacheEntry V)} {key : JsString} {ref : Nat} {entry : CacheEntry V}

theorem represents_new (maxItems : Nat) :
    (new maxItems : MemoryCacheStore V).Represents [] [] where
  carries := ⟨LinkedList.threads_empty, .nil⟩
  only := by
    intro key ref found
    cases found

theorem Represents.found (represents : store.Represents order items)
    (found : store.map.get key = some ref) :
    ref ∈ order ∧ ∃ entry, store.Holds ref (key, entry) ∧
      Lru.Recency.find items key = some entry := by
  obtain ⟨entry, member⟩ := represents.only key ref found
  obtain ⟨node, isNode, holds⟩ := LinkedList.forall₂_mem represents.carries.held member
  obtain rfl : node = ref := Option.some.inj (holds.1.symm.trans found)
  refine ⟨isNode, entry, holds, ?_⟩
  unfold Lru.Recency.find
  cases first : items.find? fun item => item.1 = key with
  | none => exact absurd (decide_eq_true rfl) (List.find?_eq_none.mp first (key, entry) member)
  | some item =>
      have isKey : item.1 = key := by simpa using List.find?_some first
      obtain ⟨other, _, otherHolds⟩ := LinkedList.forall₂_mem represents.carries.held
        (List.mem_of_find?_eq_some first)
      rw [Holds, isKey, found] at otherHolds
      obtain ⟨same, isOther⟩ := otherHolds
      obtain rfl := Option.some.inj same
      rw [holds.2] at isOther
      simpa using isOther.symm

theorem Represents.missing (represents : store.Represents order items)
    (missing : store.map.get key = none) : ∀ item ∈ items, item.1 ≠ key := by
  rintro item member rfl
  obtain ⟨node, _, holds⟩ := LinkedList.forall₂_mem represents.carries.held member
  rw [holds.1] at missing
  cases missing

theorem Represents.find (represents : store.Represents order items) (key : JsString) :
    (store.find key).map Prod.snd = Lru.Recency.find items key := by
  unfold MemoryCacheStore.find
  cases found : store.map.get key with
  | none =>
      have missing := represents.missing found
      rw [Lru.Recency.find, List.find?_eq_none.mpr (by simpa using missing)]
      rfl
  | some ref =>
      obtain ⟨_, entry, holds, isFound⟩ := represents.found found
      rw [isFound, Option.bind_some, holds.2]
      rfl

theorem Represents.find_eq_some (represents : store.Represents order items)
    (isFound : store.find key = some (ref, entry)) : store.Holds ref (key, entry) := by
  obtain ⟨other, found, isNode⟩ := Option.bind_eq_some_iff.mp isFound
  obtain ⟨_, old, holds, _⟩ := represents.found found
  rw [holds.2] at isNode
  obtain ⟨rfl, rfl⟩ : other = ref ∧ old = entry := by simpa using isNode
  exact holds

theorem Holds.ne_iff {other : Nat} {item : JsString × CacheEntry V}
    (holds : store.Holds ref (key, entry)) (otherHolds : store.Holds other item) :
    other ≠ ref ↔ item.1 ≠ key := by
  refine not_congr ⟨?_, ?_⟩
  · rintro rfl
    have same := otherHolds.2.symm.trans holds.2
    simp only [Option.some.injEq, LruNode.mk.injEq] at same
    exact same.1
  · intro same
    have isRef := otherHolds.1
    rw [same, holds.1] at isRef
    exact (Option.some.inj isRef).symm

theorem Represents.evict_map (represents : store.Represents order items)
    (found : store.map.get key = some ref) : (store.evict ref).map = store.map.delete key := by
  obtain ⟨_, entry, holds, _⟩ := represents.found found
  simp [MemoryCacheStore.evict, holds.2]

theorem Represents.evict (represents : store.Represents order items)
    (found : store.map.get key = some ref) :
    (store.evict ref).Represents (order.filter (· ≠ ref))
      (Lru.Recency.drop items fun other => other = key) := by
  obtain ⟨member, entry, holds, _⟩ := represents.found found
  have deleted := represents.evict_map found
  refine { carries := ?_, only := ?_ }
  · refine represents.carries.remove member (fun other item otherHolds => ?_) ?_
    · simpa using holds.ne_iff otherHolds
    · intro other item otherHolds keeps
      have apart : item.1 ≠ key := by simpa using keeps
      refine ⟨?_, otherHolds.2⟩
      rw [deleted, JsMap.get_delete (Ne.symm apart)]
      exact otherHolds.1
  · intro other otherRef isThere
    rw [deleted, JsMap.get_eq_some, JsMap.mem_delete] at isThere
    obtain ⟨entry, isItem⟩ := represents.only other otherRef (JsMap.get_eq_some.mpr isThere.1)
    exact ⟨entry, List.mem_filter.mpr ⟨isItem, by simpa using isThere.2⟩⟩

theorem Represents.use (represents : store.Represents order items)
    (found : store.map.get key = some ref) {nodes : List (LruNode V)}
    (isNode : nodes[ref]? = some { key, entry })
    (others : ∀ other, other ≠ ref → nodes[other]? = store.nodes[other]?) :
    ({ store with nodes }.moveToHead ref).Represents (ref :: order.filter (· ≠ ref))
      (Lru.Recency.use items key entry) := by
  obtain ⟨member, old, holds, _⟩ := represents.found found
  refine { carries := ?_, only := ?_ }
  · refine represents.carries.move member (fun other item otherHolds => ?_) ?_ ⟨found, isNode⟩
    · simpa using holds.ne_iff otherHolds
    · intro other item otherHolds keeps
      have apart : other ≠ ref := (holds.ne_iff otherHolds).mpr (by simpa using keeps)
      exact ⟨otherHolds.1, (others other apart).trans otherHolds.2⟩
  · intro other otherRef isThere
    by_cases same : other = key
    · exact ⟨entry, by simp [Lru.Recency.use, same]⟩
    · obtain ⟨entry, isItem⟩ := represents.only other otherRef isThere
      exact ⟨entry, List.mem_cons_of_mem _ (List.mem_filter.mpr ⟨isItem, by simpa using same⟩)⟩

theorem Represents.insert (represents : store.Represents order items)
    (missing : store.map.get key = none) (entry : CacheEntry V) :
    ({ store with
        nodes := store.nodes ++ [{ key, entry }]
        map := store.map.set key store.nodes.length
        links := store.links.addToHead store.nodes.length } : MemoryCacheStore V).Represents
      (store.nodes.length :: order) (Lru.Recency.use items key entry) := by
  have apart := represents.missing missing
  have unchanged : Lru.Recency.use items key entry = (key, entry) :: items := by
    rw [Lru.Recency.use, Lru.Recency.drop, List.filter_eq_self.mpr (by simpa using apart)]
  have isNew : (store.map.set key store.nodes.length).get key = some store.nodes.length :=
    JsMap.get_eq_some.mpr (JsMap.mem_set.mpr (.inl rfl))
  rw [unchanged]
  refine { carries := ?_, only := ?_ }
  · refine represents.carries.add ?_ ⟨isNew, by simp⟩ ?_
    · intro member
      obtain ⟨item, _, holds⟩ := LinkedList.forall₂_mem represents.carries.held.flip member
      exact absurd (List.getElem?_eq_some_iff.mp holds.2).1 (Nat.lt_irrefl _)
    · intro other item holds
      have differs : item.1 ≠ key := by
        rintro rfl
        rw [holds.1] at missing
        cases missing
      refine ⟨JsMap.get_eq_some.mpr (JsMap.mem_set.mpr (.inr ⟨?_, differs⟩)), ?_⟩
      · exact JsMap.get_eq_some.mp holds.1
      · rw [List.getElem?_append_left (List.getElem?_eq_some_iff.mp holds.2).1]
        exact holds.2
  · intro other otherRef isThere
    rcases JsMap.mem_set.mp (JsMap.get_eq_some.mp isThere) with same | ⟨earlier, _⟩
    · obtain ⟨rfl, _⟩ := Prod.mk.inj same
      exact ⟨entry, List.mem_cons_self⟩
    · obtain ⟨entry, isItem⟩ := represents.only other otherRef (JsMap.get_eq_some.mpr earlier)
      exact ⟨entry, List.mem_cons_of_mem _ isItem⟩

theorem Represents.evictTail (represents : store.Represents order items) :
    ∃ order, store.evictTail.Represents order (Lru.Recency.evict items) := by
  have last := LinkedList.forall₂_getLast? represents.carries.held
  rw [MemoryCacheStore.evictTail, represents.carries.threads.tail, Lru.Recency.evict]
  generalize order.getLast? = lastNode, items.getLast? = lastItem at last
  cases last with
  | none => exact ⟨order, represents⟩
  | some holds => exact ⟨_, represents.evict holds.1⟩

theorem Represents.nodes (represents : store.Represents order items) :
    order.map some = (items.map Prod.fst).map store.map.get := by
  rw [← List.forall₂_eq_eq_eq, List.map_map, List.forall₂_map_left_iff,
    List.forall₂_map_right_iff]
  exact represents.carries.held.imp fun node item holds => holds.1.symm

theorem Represents.keys (represents : store.Represents order items) :
    (store.map.entries.map Prod.fst).Perm (items.map Prod.fst) := by
  have distinct : (items.map Prod.fst).Nodup := by
    refine List.Nodup.of_map store.map.get ?_
    rw [← represents.nodes]
    exact represents.carries.threads.nodup.map (Option.some_injective _)
  refine (List.perm_ext_iff_of_nodup store.map.distinct distinct).mpr fun key => ?_
  constructor
  · intro member
    obtain ⟨⟨_, ref⟩, isEntry, rfl⟩ := List.mem_map.mp member
    obtain ⟨entry, isItem⟩ := represents.only _ ref (JsMap.get_eq_some.mpr isEntry)
    exact List.mem_map_of_mem isItem
  · intro member
    obtain ⟨item, isItem, rfl⟩ := List.mem_map.mp member
    obtain ⟨node, _, holds⟩ := LinkedList.forall₂_mem represents.carries.held isItem
    exact List.mem_map_of_mem (JsMap.get_eq_some.mp holds.1)

/-- The turns of the loop over these entries evict those that begin in the given way. -/
theorem Represents.fold (start : JsString) {entries : List (JsString × Nat)}
    (distinct : (entries.map Prod.fst).Nodup) (represents : store.Represents order items)
    (found : ∀ entry ∈ entries, store.map.get entry.1 = some entry.2) (count : Nat) :
    ∃ order, (entries.foldl (deleteIfPrefix start) (count, store)).2.Represents order
        (Lru.Recency.drop items fun key =>
          start.isPrefixOf key && decide (key ∈ entries.map Prod.fst)) ∧
      (entries.foldl (deleteIfPrefix start) (count, store)).1 =
        count + entries.countP fun entry => start.isPrefixOf entry.1 := by
  induction entries generalizing store order items count with
  | nil => exact ⟨order, by simpa [Lru.Recency.drop] using represents, rfl⟩
  | cons entry rest ih =>
      obtain ⟨isNew, later⟩ := List.nodup_cons.mp distinct
      have isFound := found entry List.mem_cons_self
      rw [List.foldl_cons, deleteIfPrefix]
      by_cases begins : start.isPrefixOf entry.1 = true
      · rw [if_pos begins]
        have remaining : ∀ other ∈ rest,
            (store.evict entry.2).map.get other.1 = some other.2 := by
          intro other member
          have apart : entry.1 ≠ other.1 := by
            intro same
            exact isNew (same ▸ List.mem_map_of_mem member)
          rw [represents.evict_map isFound, JsMap.get_delete apart]
          exact found other (List.mem_cons_of_mem _ member)
        obtain ⟨order, holds, counted⟩ := ih later (represents.evict isFound) remaining (count + 1)
        refine ⟨order, ?_, ?_⟩
        · simp only [List.map_cons, List.mem_cons, Bool.decide_or]
          rw [Lru.Recency.drop_or, if_pos begins]
          exact holds
        · rw [counted, List.countP_cons, if_pos begins]
          omega
      · rw [if_neg begins]
        obtain ⟨order, holds, counted⟩ := ih later represents
          (fun other member => found other (List.mem_cons_of_mem _ member)) count
        refine ⟨order, ?_, ?_⟩
        · simp only [List.map_cons, List.mem_cons, Bool.decide_or]
          rw [Lru.Recency.drop_or, if_neg begins]
          exact holds
        · rw [counted, List.countP_cons, if_neg begins, Nat.add_zero]

theorem Represents.deleteByPrefix (represents : store.Represents order items) (start : JsString) :
    ∃ order, (store.deleteByPrefix start).2.Represents order
        (Lru.Recency.drop items fun key => start.isPrefixOf key) ∧
      (store.deleteByPrefix start).1 = items.countP fun item => start.isPrefixOf item.1 := by
  obtain ⟨order, holds, counted⟩ := represents.fold start store.map.distinct
    (fun entry member => JsMap.get_eq_some.mpr member) 0
  have keys := represents.keys
  have left : (Lru.Recency.drop items fun key =>
      start.isPrefixOf key && decide (key ∈ store.map.entries.map Prod.fst)) =
      items.drop fun key => start.isPrefixOf key := by
    refine List.filter_congr fun item member => ?_
    have isKey := keys.mem_iff.mpr (List.mem_map_of_mem member)
    simp only [decide_eq_true isKey, Bool.and_true]
  refine ⟨order, left ▸ holds, ?_⟩
  have sameCount := keys.countP_eq fun key => start.isPrefixOf key
  rw [List.countP_map, List.countP_map] at sameCount
  rw [MemoryCacheStore.deleteByPrefix, counted, Nat.zero_add]
  exact sameCount

theorem Represents.size (represents : store.Represents order items) :
    store.map.entries.length = items.length := by
  simpa using represents.keys.length_eq

/-- An entry that is replaced makes no room for itself: nothing else has to go. -/
theorem Represents.set (represents : store.Represents order items)
    (fits : items.length ≤ store.maxItems) (key : JsString) (entry : CacheEntry V) :
    ∃ order, (store.set key entry).Represents order
      (Lru.Recency.step store.maxItems items (.set key entry)).2 := by
  rw [MemoryCacheStore.set]
  cases found : store.map.get key with
  | some ref =>
      obtain ⟨_, old, holds, isFound⟩ := represents.found found
      have isNode : (store.nodes.modify ref fun node => { node with entry })[ref]? =
          some { key, entry } := by
        rw [List.getElem?_modify_eq, holds.2]
        rfl
      have used := represents.use found isNode fun other apart =>
        List.getElem?_modify_ne _ _ (Ne.symm apart)
      have small : ¬ store.maxItems < (Lru.Recency.use items key entry).length :=
        Nat.not_lt_of_le ((Lru.Recency.use_found_length_le isFound).trans fits)
      simp only [Lru.Recency.step, if_neg small]
      exact ⟨_, used⟩
  | none =>
      have inserted := represents.insert found entry
      simp only [Lru.Recency.step, inserted.size]
      split
      · exact inserted.evictTail
      · exact ⟨_, inserted⟩

theorem Represents.get (represents : store.Represents order items) (key : JsString)
    (now : Timestamp) :
    ∃ order, (store.get key now).2.Represents order
        (Lru.Recency.step store.maxItems items
          (.get key fun entry => entry.expiresAt ≤ now)).2 ∧
      .found (store.get key now).1 = (Lru.Recency.step store.maxItems items
        (.get key fun entry => entry.expiresAt ≤ now)).1 := by
  rw [MemoryCacheStore.get, Lru.Recency.step, ← represents.find key]
  cases isFound : store.find key with
  | none => exact ⟨order, ⟨represents.carries, represents.only⟩, rfl⟩
  | some node =>
      obtain ⟨ref, entry⟩ := node
      have holds := represents.find_eq_some isFound
      simp only [Option.map_some, decide_eq_true_eq]
      split
      · have evicted := represents.evict holds.1
        exact ⟨_, ⟨evicted.carries, evicted.only⟩, rfl⟩
      · have used := represents.use holds.1 holds.2 fun _ _ => rfl
        exact ⟨_, ⟨used.carries, used.only⟩, rfl⟩

theorem Represents.has (represents : store.Represents order items) (key : JsString)
    (now : Timestamp) :
    ∃ order, (store.has key now).2.Represents order
        (Lru.Recency.step store.maxItems items
          (.has key fun entry => entry.expiresAt ≤ now)).2 ∧
      .there (store.has key now).1 = (Lru.Recency.step store.maxItems items
        (.has key fun entry => entry.expiresAt ≤ now)).1 := by
  rw [MemoryCacheStore.has, Lru.Recency.step, ← represents.find key]
  cases isFound : store.find key with
  | none => exact ⟨order, represents, rfl⟩
  | some node =>
      obtain ⟨ref, entry⟩ := node
      simp only [Option.map_some, decide_eq_true_eq]
      split
      · exact ⟨_, represents.evict (represents.find_eq_some isFound).1, rfl⟩
      · exact ⟨order, represents, rfl⟩

theorem Represents.delete (represents : store.Represents order items) (key : JsString) :
    ∃ order, (store.delete key).Represents order
      (Lru.Recency.drop items fun other => other = key) := by
  rw [MemoryCacheStore.delete]
  cases found : store.map.get key with
  | some ref => exact ⟨_, represents.evict found⟩
  | none =>
      have apart := represents.missing found
      rw [Lru.Recency.drop, List.filter_eq_self.mpr (by simpa using apart)]
      exact ⟨order, represents⟩

theorem Represents.step (represents : store.Represents order items)
    (fits : items.length ≤ store.maxItems) (operation : Operation V) :
    ∃ order, (store.step operation).2.Represents order
        (Lru.Recency.step store.maxItems items operation.meaning).2 ∧
      (store.step operation).1 = (Lru.Recency.step store.maxItems items operation.meaning).1 := by
  cases operation with
  | get key now => exact represents.get key now
  | set key entry =>
      obtain ⟨order, holds⟩ := represents.set fits key entry
      exact ⟨order, holds, rfl⟩
  | delete key =>
      obtain ⟨order, holds⟩ := represents.delete key
      exact ⟨order, holds, rfl⟩
  | deleteByPrefix start =>
      obtain ⟨order, holds, counted⟩ := represents.deleteByPrefix start
      exact ⟨order, holds, congrArg Lru.Answer.removed counted⟩
  | has key now => exact represents.has key now

theorem fold_maxItems (start : JsString) (entries : List (JsString × Nat))
    (counted : Nat × MemoryCacheStore V) :
    (entries.foldl (deleteIfPrefix start) counted).2.maxItems = counted.2.maxItems := by
  induction entries generalizing counted with
  | nil => rfl
  | cons entry rest ih =>
      rw [List.foldl_cons, ih, deleteIfPrefix]
      split <;> rfl

theorem set_maxItems (store : MemoryCacheStore V) (key : JsString) (entry : CacheEntry V) :
    (store.set key entry).maxItems = store.maxItems := by
  unfold MemoryCacheStore.set
  split
  · rfl
  · simp only
    split
    · unfold MemoryCacheStore.evictTail
      split <;> rfl
    · rfl

theorem step_maxItems (store : MemoryCacheStore V) (operation : Operation V) :
    (store.step operation).2.maxItems = store.maxItems := by
  cases operation with
  | get key now =>
      unfold step MemoryCacheStore.get
      simp only
      split
      · rfl
      · split <;> rfl
  | set key entry => exact set_maxItems store key entry
  | delete key =>
      unfold step MemoryCacheStore.delete
      simp only
      split <;> rfl
  | deleteByPrefix start => exact fold_maxItems start store.map.entries (0, store)
  | has key now =>
      unfold step MemoryCacheStore.has
      simp only
      split
      · rfl
      · split <;> rfl

/-- The list of the store is in order, and within the limit. -/
def Valid (store : MemoryCacheStore V) : Prop :=
  ∃ order items, store.Represents order items ∧ items.length ≤ store.maxItems

/-- The entry under the key, whether over or not. -/
def lookup (store : MemoryCacheStore V) (key : JsString) : Option (CacheEntry V) :=
  (store.find key).map Prod.snd

theorem Valid.step (valid : store.Valid) (operation : Operation V) :
    (store.step operation).2.Valid := by
  obtain ⟨order, items, represents, fits⟩ := valid
  obtain ⟨later, holds, _⟩ := represents.step fits operation
  refine ⟨later, _, holds, ?_⟩
  rw [step_maxItems]
  exact Lru.Recency.step_length_le fits _

theorem get_answer (store : MemoryCacheStore V) (key : JsString) (now : Timestamp) :
    (store.get key now).1 =
      (store.lookup key).filter fun entry => !decide (entry.expiresAt ≤ now) := by
  unfold MemoryCacheStore.get lookup
  cases store.find key with
  | none => rfl
  | some node =>
      obtain ⟨ref, entry⟩ := node
      by_cases isOver : entry.expiresAt ≤ now
      · simp [isOver, Option.filter]
      · simp [isOver, Option.filter]

theorem Valid.lookup_get (valid : store.Valid) (key other : JsString) (now : Timestamp) :
    (store.get key now).2.lookup other =
      if other = key then (store.lookup key).filter fun entry => !decide (entry.expiresAt ≤ now)
      else store.lookup other := by
  obtain ⟨order, items, represents, fits⟩ := valid
  obtain ⟨later, holds, _⟩ := represents.get key now
  rw [MemoryCacheStore.lookup, holds.find, Lru.Recency.find_get, MemoryCacheStore.lookup,
    MemoryCacheStore.lookup, represents.find, represents.find]

theorem Valid.lookup_set (valid : store.Valid) {key other : JsString} {value : CacheEntry V}
    (found : (store.set key value).lookup other = some entry) :
    if other = key then entry = value else store.lookup other = some entry := by
  obtain ⟨order, items, represents, fits⟩ := valid
  obtain ⟨later, holds⟩ := represents.set fits key value
  rw [MemoryCacheStore.lookup, holds.find] at found
  rw [MemoryCacheStore.lookup, represents.find]
  exact Lru.Recency.find_set found

theorem Valid.lookup_set_self (valid : store.Valid) (positive : 0 < store.maxItems)
    (key : JsString) (value : CacheEntry V) : (store.set key value).lookup key = some value := by
  obtain ⟨order, items, represents, fits⟩ := valid
  obtain ⟨later, holds⟩ := represents.set fits key value
  rw [MemoryCacheStore.lookup, holds.find]
  exact Lru.Recency.find_set_self positive key value

theorem Valid.lookup_delete (valid : store.Valid) (key other : JsString) :
    (store.delete key).lookup other = if other = key then none else store.lookup other := by
  obtain ⟨order, items, represents, fits⟩ := valid
  obtain ⟨later, holds⟩ := represents.delete key
  rw [MemoryCacheStore.lookup, holds.find, Lru.Recency.find_drop, MemoryCacheStore.lookup,
    represents.find]
  simp

theorem Valid.lookup_deleteByPrefix (valid : store.Valid) (start other : JsString) :
    (store.deleteByPrefix start).2.lookup other =
      if start.isPrefixOf other then none else store.lookup other := by
  obtain ⟨order, items, represents, fits⟩ := valid
  obtain ⟨later, holds, _⟩ := represents.deleteByPrefix start
  rw [MemoryCacheStore.lookup, holds.find, Lru.Recency.find_drop, MemoryCacheStore.lookup,
    represents.find]

theorem Valid.lookup_of_empty (valid : store.Valid) (isEmpty : store.maxItems = 0)
    (key : JsString) : store.lookup key = none := by
  obtain ⟨order, items, represents, fits⟩ := valid
  obtain rfl : items = [] := List.eq_nil_of_length_eq_zero (by omega)
  rw [MemoryCacheStore.lookup, represents.find]
  rfl

def after (store : MemoryCacheStore V) (operations : List (Operation V)) : MemoryCacheStore V :=
  operations.foldl (fun store operation => (store.step operation).2) store

def referenceAfter (maxItems : Nat) (operations : List (Operation V)) :
    Lru.Reference JsString (CacheEntry V) :=
  operations.foldl (fun reference operation => (reference.step maxItems operation.meaning).2)
    Lru.Reference.empty

/-- The list runs through the nodes of the map's entries, once each, linked in both directions,
and each node carries the key the map has it under. -/
def Consistent (store : MemoryCacheStore V) : Prop :=
  ∃ order, store.links.Threads order ∧ order.Perm store.map.values ∧
    ∀ entry ∈ store.map.entries, ∃ node, store.nodes[entry.2]? = some node ∧ node.key = entry.1

theorem Represents.consistent (represents : store.Represents order items) : store.Consistent := by
  refine ⟨order, represents.carries.threads, ?_, ?_⟩
  · have known : (store.map.entries.map Prod.fst).map store.map.get =
        store.map.values.map some := by
      rw [JsMap.values, List.map_map, List.map_map]
      exact List.map_congr_left fun entry member => JsMap.get_eq_some.mpr member
    have same := represents.keys.map store.map.get
    rw [known, ← represents.nodes] at same
    exact ((List.map_perm_map_iff (Option.some_injective _)).mp same).symm
  · intro entry member
    obtain ⟨_, value, holds, _⟩ := represents.found (JsMap.get_eq_some.mpr member)
    exact ⟨_, holds.2, rfl⟩

/-- The run: after any operations the list is in order and agrees with the reference. -/
theorem represents_after (maxItems : Nat) (operations : List (Operation V)) :
    ∃ order items, ((new maxItems).after operations).Represents order items ∧
      items.length ≤ maxItems ∧ ((new maxItems).after operations).maxItems = maxItems ∧
      Lru.Agrees (referenceAfter maxItems operations) items := by
  induction operations using List.reverseRecOn with
  | nil => exact ⟨[], [], represents_new maxItems, Nat.zero_le _, rfl, Lru.agrees_empty⟩
  | append_singleton operations operation ih =>
      obtain ⟨order, items, represents, fits, bound, agrees⟩ := ih
      rw [after, referenceAfter, List.foldl_append, List.foldl_append]
      obtain ⟨later, holds, _⟩ := represents.step (by rw [bound]; exact fits) operation
      rw [bound] at holds
      exact ⟨later, _, holds, Lru.Recency.step_length_le fits _,
        (step_maxItems _ operation).trans bound, (agrees.step maxItems _).2⟩

theorem valid_after (maxItems : Nat) (operations : List (Operation V)) :
    ((new maxItems).after operations).Valid := by
  obtain ⟨order, items, represents, fits, bound, _⟩ := represents_after maxItems operations
  exact ⟨order, items, represents, by rw [bound]; exact fits⟩

/-- The store is a map that evicts the entry used the longest ago: in every run the list fits the
map, the size keeps to the limit, every answer is that of the reference, and a new key in a full
store takes the place of the entry the reference finds least recently used. -/
theorem refines_lru (maxItems : Nat) (operations : List (Operation V)) :
    let store := (new maxItems).after operations
    let reference := referenceAfter maxItems operations
    store.Consistent ∧ store.map.entries.length ≤ maxItems ∧
    (∀ key, (store.find key).map Prod.snd = (reference.map.get key).map Prod.fst) ∧
    (∀ operation, (store.step operation).1 = (reference.step maxItems operation.meaning).1) ∧
    ∀ key entry, store.find key = none → store.map.entries.length = maxItems → 0 < maxItems →
      ∃ oldest, reference.leastRecent = some oldest ∧
        ∀ other, ((store.set key entry).find other).map Prod.snd =
          if other = key then some entry
          else if other = oldest.1 then none else (store.find other).map Prod.snd := by
  intro store reference
  obtain ⟨order, items, represents, fits, bound, agrees⟩ := represents_after maxItems operations
  refine ⟨represents.consistent, represents.size ▸ fits, fun key => ?_, fun operation => ?_, ?_⟩
  · rw [represents.find key, agrees.find key]
  · obtain ⟨_, _, answers⟩ := represents.step (by rw [bound]; exact fits) operation
    rw [answers, bound, (agrees.step maxItems operation.meaning).1]
  · intro key entry missing full positive
    have isNew : Lru.Recency.find items key = none := by
      rw [← represents.find key, missing]
      rfl
    have isFull : items.length = maxItems := represents.size.symm.trans full
    have filled : items ≠ [] := List.ne_nil_of_length_pos (by omega)
    obtain ⟨last, isLast⟩ := Option.ne_none_iff_exists'.mp (List.getLast?_eq_none_iff.not.mpr filled)
    obtain ⟨oldest, isOldest, rfl⟩ := Option.map_eq_some_iff.mp (agrees.leastRecent.trans isLast)
    obtain ⟨later, holds⟩ := represents.set (by rw [bound]; exact fits) key entry
    refine ⟨oldest, isOldest, fun other => ?_⟩
    rw [holds.find, bound, Lru.Recency.find_set_full isNew isFull isLast, represents.find other]
    rfl

end MemoryCacheStore
