import ArmstrongBot.Library.JsMap
import Mathlib.Data.List.Perm.Basic

/-! Maps of bounded size that make room by evicting the entry whose last use is the longest ago:
the reference, which dates every use, and the recency list, which keeps the last used in front. -/

namespace Lru

/-- What is asked of the map. An entry that is `over` is dropped where it is looked up, and counts
as missing. -/
inductive Operation (κ ν : Type*)
  | get (key : κ) (isOver : ν → Bool)
  | has (key : κ) (isOver : ν → Bool)
  | set (key : κ) (value : ν)
  | delete (key : κ)
  | deleteWhere (matching : κ → Bool)

inductive Answer (ν : Type*)
  | found (value : Option ν)
  | there (isThere : Bool)
  | done
  | removed (count : Nat)
  deriving DecidableEq

variable {κ ν : Type*}

/-- The reference: each value with the time of its last use, counted in uses. -/
structure Reference (κ ν : Type*) where
  clock : Nat
  map : JsMap κ (ν × Nat)

namespace Reference

def empty : Reference κ ν := { clock := 0, map := JsMap.empty }

def use [DecidableEq κ] (reference : Reference κ ν) (key : κ) (value : ν) : Reference κ ν :=
  { clock := reference.clock + 1, map := reference.map.set key (value, reference.clock) }

def drop (reference : Reference κ ν) (matching : κ → Bool) : Reference κ ν :=
  { reference with map := reference.map.filter fun key => !matching key }

/-- The entry of which every other was used later. -/
def leastRecent (reference : Reference κ ν) : Option (κ × ν × Nat) :=
  reference.map.entries.find? fun entry =>
    reference.map.entries.all fun other => entry.2.2 ≤ other.2.2

def evict [DecidableEq κ] (reference : Reference κ ν) : Reference κ ν :=
  match reference.leastRecent with
  | some entry => reference.drop fun key => key = entry.1
  | none => reference

def step [DecidableEq κ] (bound : Nat) (reference : Reference κ ν) :
    Operation κ ν → Answer ν × Reference κ ν
  | .get key isOver =>
      match reference.map.get key with
      | none => (.found none, reference)
      | some (value, _) =>
          if isOver value then (.found none, reference.drop fun other => other = key)
          else (.found (some value), reference.use key value)
  | .has key isOver =>
      match reference.map.get key with
      | none => (.there false, reference)
      | some (value, _) =>
          if isOver value then (.there false, reference.drop fun other => other = key)
          else (.there true, reference)
  | .set key value =>
      let reference := reference.use key value
      (.done, if bound < reference.map.entries.length then reference.evict else reference)
  | .delete key => (.done, reference.drop fun other => other = key)
  | .deleteWhere matching =>
      (.removed (reference.map.entries.countP fun entry => matching entry.1),
        reference.drop matching)

end Reference

/-- The entries, the last used in front. -/
abbrev Recency (κ ν : Type*) := List (κ × ν)

namespace Recency

def find [DecidableEq κ] (items : Recency κ ν) (key : κ) : Option ν :=
  (items.find? fun item => item.1 = key).map Prod.snd

def drop (items : Recency κ ν) (matching : κ → Bool) : Recency κ ν :=
  items.filter fun item => !matching item.1

def use [DecidableEq κ] (items : Recency κ ν) (key : κ) (value : ν) : Recency κ ν :=
  (key, value) :: drop items fun other => other = key

def evict [DecidableEq κ] (items : Recency κ ν) : Recency κ ν :=
  match items.getLast? with
  | some item => drop items fun key => key = item.1
  | none => items

def step [DecidableEq κ] (bound : Nat) (items : Recency κ ν) :
    Operation κ ν → Answer ν × Recency κ ν
  | .get key isOver =>
      match find items key with
      | none => (.found none, items)
      | some value =>
          if isOver value then (.found none, drop items fun other => other = key)
          else (.found (some value), use items key value)
  | .has key isOver =>
      match find items key with
      | none => (.there false, items)
      | some value =>
          if isOver value then (.there false, drop items fun other => other = key)
          else (.there true, items)
  | .set key value =>
      let items := use items key value
      (.done, if bound < items.length then evict items else items)
  | .delete key => (.done, drop items fun other => other = key)
  | .deleteWhere matching =>
      (.removed (items.countP fun item => matching item.1), drop items matching)

end Recency

/-- The reference holds these entries, and the later in the list the longer ago was the last
use. -/
structure Dated (reference : Reference κ ν) (dated : List (κ × ν × Nat)) : Prop where
  same : ∀ entry, entry ∈ reference.map.entries ↔ entry ∈ dated
  later : dated.Pairwise fun entry other => other.2.2 < entry.2.2
  past : ∀ entry ∈ dated, entry.2.2 < reference.clock

def undated (entry : κ × ν × Nat) : κ × ν := (entry.1, entry.2.1)

/-- The recency list is the reference without the times. -/
def Agrees (reference : Reference κ ν) (items : Recency κ ν) : Prop :=
  ∃ dated, Dated reference dated ∧ items = dated.map undated

variable {reference : Reference κ ν} {dated : List (κ × ν × Nat)} {items : Recency κ ν}

theorem agrees_empty : Agrees (Reference.empty : Reference κ ν) [] :=
  ⟨[], ⟨by simp [Reference.empty, JsMap.empty], List.Pairwise.nil, by simp⟩, rfl⟩

theorem Dated.perm (holds : Dated reference dated) : reference.map.entries.Perm dated := by
  have distinct : dated.Nodup := by
    refine holds.later.imp ?_
    rintro entry other before rfl
    exact absurd before (Nat.lt_irrefl _)
  exact (List.perm_ext_iff_of_nodup (reference.map.distinct.of_map _) distinct).mpr holds.same

/-- The last of the list is the one used the longest ago. -/
theorem Dated.leastRecent (holds : Dated reference dated) :
    reference.leastRecent = dated.getLast? := by
  cases dated using List.reverseRecOn with
  | nil =>
      refine List.find?_eq_none.mpr fun entry member => ?_
      exact absurd ((holds.same entry).mp member) (by simp)
  | append_singleton front last =>
      have after : ∀ entry ∈ front, last.2.2 < entry.2.2 := fun entry member =>
        (List.pairwise_append.mp holds.later).2.2 entry member last (by simp)
      have least : ∀ entry ∈ reference.map.entries, last.2.2 ≤ entry.2.2 := by
        intro entry member
        rcases List.mem_append.mp ((holds.same entry).mp member) with earlier | isLast
        · exact Nat.le_of_lt (after entry earlier)
        · obtain rfl := List.mem_singleton.mp isLast
          exact Nat.le_refl _
      rw [List.getLast?_concat]
      cases found : reference.leastRecent with
      | none =>
          have member := (holds.same last).mpr (by simp)
          exact absurd (List.find?_eq_none.mp found last member) (by simpa using least)
      | some entry =>
          have member := List.mem_of_find?_eq_some found
          have minimal : entry.2.2 ≤ last.2.2 := by
            unfold Reference.leastRecent at found
            have every := List.find?_some found
            simpa using List.all_eq_true.mp every last ((holds.same last).mpr (by simp))
          rcases List.mem_append.mp ((holds.same entry).mp member) with earlier | isLast
          · exact absurd minimal (Nat.not_le_of_lt (after entry earlier))
          · rw [List.mem_singleton.mp isLast]

theorem Agrees.leastRecent (agrees : Agrees reference items) :
    reference.leastRecent.map undated = items.getLast? := by
  obtain ⟨dated, holds, rfl⟩ := agrees
  rw [holds.leastRecent, List.getLast?_map]

theorem Agrees.drop (agrees : Agrees reference items) (matching : κ → Bool) :
    Agrees (reference.drop matching) (Recency.drop items matching) := by
  obtain ⟨dated, holds, rfl⟩ := agrees
  refine ⟨dated.filter fun entry => !matching entry.1, ?_, ?_⟩
  · refine ⟨fun entry => ?_, holds.later.filter _, fun entry member => ?_⟩
    · rw [Reference.drop, JsMap.mem_filter, holds.same, List.mem_filter]
    · exact holds.past entry (List.mem_filter.mp member).1
  · rw [Recency.drop, List.filter_map]
    rfl

theorem Agrees.length (agrees : Agrees reference items) :
    reference.map.entries.length = items.length := by
  obtain ⟨dated, holds, rfl⟩ := agrees
  rw [holds.perm.length_eq, List.length_map]

theorem Agrees.countP (agrees : Agrees reference items) (matching : κ → Bool) :
    reference.map.entries.countP (fun entry => matching entry.1) =
      items.countP fun item => matching item.1 := by
  obtain ⟨dated, holds, rfl⟩ := agrees
  rw [holds.perm.countP_eq, List.countP_map]
  rfl

theorem Recency.drop_length_le (items : Recency κ ν) (matching : κ → Bool) :
    (drop items matching).length ≤ items.length :=
  List.length_filter_le _ _

variable [DecidableEq κ]

theorem Agrees.find (agrees : Agrees reference items) (key : κ) :
    Recency.find items key = (reference.map.get key).map Prod.fst := by
  obtain ⟨dated, holds, rfl⟩ := agrees
  rw [Recency.find, List.find?_map, Option.map_map]
  cases found : dated.find? ((fun item => decide (item.1 = key)) ∘ undated) with
  | none =>
      have missing : reference.map.get key = none := by
        refine JsMap.get_eq_none.mpr fun entry member => ?_
        intro sameKey
        exact List.find?_eq_none.mp found entry ((holds.same entry).mp member)
          (decide_eq_true sameKey)
      rw [missing]
      rfl
  | some entry =>
      have isKey := List.find?_some found
      obtain rfl : entry.1 = key := of_decide_eq_true isKey
      have member := (holds.same entry).mpr (List.mem_of_find?_eq_some found)
      rw [JsMap.get_eq_some.mpr member]
      rfl

theorem Agrees.use (agrees : Agrees reference items) (key : κ) (value : ν) :
    Agrees (reference.use key value) (Recency.use items key value) := by
  obtain ⟨dated, holds, rfl⟩ := agrees
  refine ⟨(key, value, reference.clock) :: dated.filter fun entry => !decide (entry.1 = key),
    ?_, ?_⟩
  · refine ⟨fun entry => ?_, ?_, fun entry member => ?_⟩
    · rw [Reference.use, JsMap.mem_set, holds.same, List.mem_cons, List.mem_filter]
      simp
    · refine List.pairwise_cons.mpr ⟨fun entry member => ?_, holds.later.filter _⟩
      exact holds.past entry (List.mem_filter.mp member).1
    · rcases List.mem_cons.mp member with rfl | earlier
      · exact Nat.lt_succ_self _
      · exact Nat.lt_succ_of_lt (holds.past entry (List.mem_filter.mp earlier).1)
  · rw [Recency.use, Recency.drop, List.filter_map]
    rfl

theorem Agrees.evict (agrees : Agrees reference items) :
    Agrees reference.evict (Recency.evict items) := by
  rw [Reference.evict, Recency.evict, ← agrees.leastRecent]
  cases reference.leastRecent with
  | none => exact agrees
  | some last => exact agrees.drop _

theorem Agrees.step (agrees : Agrees reference items) (bound : Nat) (operation : Operation κ ν) :
    (reference.step bound operation).1 = (Recency.step bound items operation).1 ∧
      Agrees (reference.step bound operation).2 (Recency.step bound items operation).2 := by
  cases operation with
  | get key isOver =>
      rw [Reference.step, Recency.step, agrees.find key]
      cases reference.map.get key with
      | none => exact ⟨rfl, agrees⟩
      | some cell =>
          simp only [Option.map_some]
          split
          · exact ⟨rfl, agrees.drop _⟩
          · exact ⟨rfl, agrees.use key cell.1⟩
  | has key isOver =>
      rw [Reference.step, Recency.step, agrees.find key]
      cases reference.map.get key with
      | none => exact ⟨rfl, agrees⟩
      | some cell =>
          simp only [Option.map_some]
          split
          · exact ⟨rfl, agrees.drop _⟩
          · exact ⟨rfl, agrees⟩
  | set key value =>
      have used := agrees.use key value
      refine ⟨rfl, ?_⟩
      simp only [Reference.step, Recency.step, used.length]
      split
      · exact used.evict
      · exact used
  | delete key => exact ⟨rfl, agrees.drop _⟩
  | deleteWhere matching =>
      refine ⟨?_, agrees.drop matching⟩
      rw [Reference.step, Recency.step, agrees.countP matching]

/-- Of several keys one is dropped, where it is dropped at all, before the others. -/
theorem Recency.drop_or (items : Recency κ ν) (matching others : κ → Bool) (first : κ) :
    (drop items fun key => matching key && (decide (key = first) || others key)) =
      drop (if matching first then drop items fun key => key = first else items)
        fun key => matching key && others key := by
  cases matched : matching first with
  | true =>
      rw [if_pos rfl, drop, drop, drop, List.filter_filter]
      refine List.filter_congr fun item _ => ?_
      by_cases same : item.1 = first <;> simp [same, matched]
  | false =>
      refine List.filter_congr fun item _ => ?_
      by_cases same : item.1 = first <;> simp [same, matched]

theorem Recency.find_drop (items : Recency κ ν) (matching : κ → Bool) (key : κ) :
    find (drop items matching) key = if matching key then none else find items key := by
  unfold find drop
  rw [List.find?_filter]
  split
  · rename_i gone
    rw [List.find?_eq_none.mpr]
    · rfl
    · intro item _ found
      simp only [Bool.not_eq_true', decide_eq_true_eq] at found
      rw [found.2, gone] at found
      exact absurd found.1 (by decide)
  · rename_i stays
    congr 2
    funext item
    by_cases same : item.1 = key
    · simp [same, stays]
    · simp [same]

theorem Recency.find_use (items : Recency κ ν) (key other : κ) (value : ν) :
    find (use items key value) other = if other = key then some value else find items other := by
  by_cases same : other = key
  · simp [find, use, same]
  · rw [if_neg same, find, use, List.find?_cons_of_neg (by simpa using Ne.symm same), ← find,
      find_drop]
    simp [same]

/-- A new key in a full list takes the place of the last one. -/
theorem Recency.find_set_full {bound : Nat} {key : κ} {last : κ × ν}
    (missing : find items key = none) (full : items.length = bound)
    (isLast : items.getLast? = some last) (value : ν) (other : κ) :
    find (step bound items (.set key value)).2 other =
      if other = key then some value else if other = last.1 then none else find items other := by
  have others : ∀ item ∈ items, item.1 ≠ key := by
    simpa [find] using missing
  have used : use items key value = (key, value) :: items := by
    rw [use, drop, List.filter_eq_self.mpr (by simpa using others)]
  have large : bound < (use items key value).length := by
    rw [used, List.length_cons, full]
    exact Nat.lt_succ_self _
  have apart : last.1 ≠ key := others last (List.mem_of_getLast? isLast)
  have evicts : (use items key value).getLast? = some last := by
    rw [used, List.getLast?_cons, isLast]
    rfl
  simp only [step, if_pos large, evict, evicts, find_drop, find_use, decide_eq_true_eq]
  by_cases same : other = key
  · subst same
    rw [if_neg (Ne.symm apart), if_pos rfl, if_pos rfl]
  · rw [if_neg same, if_neg same]

theorem Recency.find_get (bound : Nat) (items : Recency κ ν) (key other : κ) (isOver : ν → Bool) :
    find (step bound items (.get key isOver)).2 other =
      if other = key then (find items key).filter fun value => !isOver value
      else find items other := by
  rw [step]
  by_cases same : other = key
  · subst same
    cases found : find items other with
    | none => simp [found]
    | some value =>
        by_cases over_ : isOver value = true
        · simp [find_drop, over_, Option.filter]
        · simp [find_use, over_, Option.filter]
  · cases find items key with
    | none => simp [same]
    | some value =>
        by_cases over_ : isOver value = true
        · simp [find_drop, over_, same]
        · simp [find_use, over_, same]

theorem Recency.find_set {bound : Nat} {key other : κ} {value found : ν}
    (isFound : find (step bound items (.set key value)).2 other = some found) :
    if other = key then found = value else find items other = some found := by
  have inUse : find (use items key value) other = some found := by
    simp only [step] at isFound
    split at isFound
    · unfold evict at isFound
      split at isFound
      · rw [find_drop] at isFound
        split at isFound
        · cases isFound
        · exact isFound
      · exact isFound
    · exact isFound
  rw [find_use] at inUse
  split
  · rename_i same
    rw [if_pos same] at inUse
    exact (Option.some.inj inUse).symm
  · rename_i different
    rw [if_neg different] at inUse
    exact inUse

theorem Recency.find_set_self {bound : Nat} (positive : 0 < bound) (key : κ) (value : ν) :
    find (step bound items (.set key value)).2 key = some value := by
  simp only [step]
  split
  · rename_i large
    have filled : drop items (fun other => other = key) ≠ [] := by
      intro isEmpty
      rw [use, isEmpty] at large
      simp only [List.length_singleton] at large
      omega
    have isLast : (use items key value).getLast? =
        some ((drop items fun other => other = key).getLast filled) := by
      rw [use, List.getLast?_cons, List.getLast?_eq_some_getLast filled]
      rfl
    have apart : ((drop items fun other => other = key).getLast filled).1 ≠ key := by
      simpa using (List.mem_filter.mp (List.getLast_mem filled)).2
    simp only [evict, isLast, find_drop, find_use, decide_eq_true_eq, if_neg (Ne.symm apart),
      if_true]
  · rw [find_use, if_pos rfl]

theorem Recency.use_length_le (items : Recency κ ν) (key : κ) (value : ν) :
    (use items key value).length ≤ items.length + 1 :=
  Nat.succ_le_succ (drop_length_le items _)

theorem Recency.use_found_length_le {key : κ} {old value : ν}
    (found : find items key = some old) :
    (use items key value).length ≤ items.length := by
  obtain ⟨item, isItem, _⟩ := Option.map_eq_some_iff.mp found
  have isKey := List.find?_some isItem
  refine List.length_filter_lt_length_iff_exists.mpr ⟨item, ?_, ?_⟩
  · exact List.mem_of_find?_eq_some isItem
  · simpa using isKey

theorem Recency.evict_length_lt (filled : items ≠ []) : (evict items).length < items.length := by
  rw [evict, List.getLast?_eq_getLast_of_ne_nil filled]
  refine List.length_filter_lt_length_iff_exists.mpr ⟨items.getLast filled, ?_, ?_⟩
  · exact List.getLast_mem filled
  · simp

theorem Recency.step_length_le {bound : Nat} (fits : items.length ≤ bound)
    (operation : Operation κ ν) : (step bound items operation).2.length ≤ bound := by
  cases operation with
  | get key isOver =>
      rw [step]
      cases found : find items key with
      | none => exact fits
      | some value =>
          simp only
          split
          · exact Nat.le_trans (drop_length_le items fun other => other = key) fits
          · exact Nat.le_trans (use_found_length_le found) fits
  | has key isOver =>
      rw [step]
      cases find items key with
      | none => exact fits
      | some value =>
          simp only
          split
          · exact Nat.le_trans (drop_length_le items fun other => other = key) fits
          · exact fits
  | set key value =>
      simp only [step]
      split
      · rename_i full
        have filled : use items key value ≠ [] := List.cons_ne_nil _ _
        have smaller := evict_length_lt filled
        have larger := use_length_le items key value
        omega
      · rename_i small
        exact Nat.le_of_not_lt small
  | delete key => exact Nat.le_trans (drop_length_le items fun other => other = key) fits
  | deleteWhere matching => exact Nat.le_trans (drop_length_le items matching) fits

end Lru
