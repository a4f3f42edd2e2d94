import Mathlib.Data.List.Induction
import Mathlib.Data.List.Nodup

/-! ECMAScript maps: one entry for each key, in the order in which the keys came in. -/

structure JsMap (κ ν : Type*) where
  entries : List (κ × ν)
  distinct : (entries.map Prod.fst).Nodup

namespace JsMap

variable {κ ν : Type*}

def empty : JsMap κ ν := { entries := [], distinct := List.nodup_nil }

def values (map : JsMap κ ν) : List ν := map.entries.map Prod.snd

variable [DecidableEq κ]

/-- A key that is there keeps its place. -/
def setIn : List (κ × ν) → κ → ν → List (κ × ν)
  | [], key, value => [(key, value)]
  | entry :: rest, key, value =>
      if entry.1 = key then (key, value) :: rest else entry :: setIn rest key value

theorem mem_setIn {entries : List (κ × ν)} (distinct : (entries.map Prod.fst).Nodup) {key : κ}
    {value : ν} {entry : κ × ν} :
    entry ∈ setIn entries key value ↔ entry = (key, value) ∨ entry ∈ entries ∧ entry.1 ≠ key := by
  induction entries with
  | nil => simp [setIn]
  | cons first rest ih =>
      obtain ⟨isNew, later⟩ := List.nodup_cons.mp distinct
      rw [setIn]
      split
      · rename_i same
        have others : ∀ entry ∈ rest, entry.1 ≠ key := by
          rintro entry member rfl
          rw [same] at isNew
          exact isNew (List.mem_map_of_mem member)
        simp only [List.mem_cons]
        constructor
        · rintro (rfl | member)
          · exact .inl rfl
          · exact .inr ⟨.inr member, others entry member⟩
        · rintro (rfl | ⟨rfl | member, apart⟩)
          · exact .inl rfl
          · exact absurd same apart
          · exact .inr member
      · rename_i different
        simp only [List.mem_cons, ih later]
        constructor
        · rintro (rfl | rfl | ⟨member, apart⟩)
          · exact .inr ⟨.inl rfl, different⟩
          · exact .inl rfl
          · exact .inr ⟨.inr member, apart⟩
        · rintro (rfl | ⟨rfl | member, apart⟩)
          · exact .inr (.inl rfl)
          · exact .inl rfl
          · exact .inr (.inr ⟨member, apart⟩)

theorem setIn_nodup {entries : List (κ × ν)} (distinct : (entries.map Prod.fst).Nodup) (key : κ)
    (value : ν) : ((setIn entries key value).map Prod.fst).Nodup := by
  induction entries with
  | nil => simp [setIn]
  | cons first rest ih =>
      obtain ⟨isNew, later⟩ := List.nodup_cons.mp distinct
      rw [setIn]
      split
      · rename_i same
        rw [List.map_cons]
        exact List.nodup_cons.mpr ⟨same ▸ isNew, later⟩
      · rename_i different
        rw [List.map_cons]
        refine List.nodup_cons.mpr ⟨fun member => ?_, ih later⟩
        obtain ⟨entry, isEntry, sameKey⟩ := List.mem_map.mp member
        rcases (mem_setIn later).mp isEntry with rfl | ⟨before, _⟩
        · exact different sameKey.symm
        · exact isNew (sameKey ▸ List.mem_map_of_mem before)

def get (map : JsMap κ ν) (key : κ) : Option ν :=
  (map.entries.find? fun entry => entry.1 = key).map Prod.snd

def set (map : JsMap κ ν) (key : κ) (value : ν) : JsMap κ ν :=
  { entries := setIn map.entries key value, distinct := setIn_nodup map.distinct key value }

def delete (map : JsMap κ ν) (key : κ) : JsMap κ ν :=
  { entries := map.entries.filter fun entry => entry.1 ≠ key
    distinct := map.distinct.sublist (List.filter_sublist.map _) }

/-- The entries under the keys that meet the condition. -/
def filter (map : JsMap κ ν) (keep : κ → Bool) : JsMap κ ν :=
  { entries := map.entries.filter fun entry => keep entry.1
    distinct := map.distinct.sublist (List.filter_sublist.map _) }

/-- `new Map(entries)`. -/
def ofEntries (entries : List (κ × ν)) : JsMap κ ν :=
  entries.foldl (fun map entry => map.set entry.1 entry.2) empty

theorem mem_set {map : JsMap κ ν} {key : κ} {value : ν} {entry : κ × ν} :
    entry ∈ (map.set key value).entries ↔
      entry = (key, value) ∨ entry ∈ map.entries ∧ entry.1 ≠ key :=
  mem_setIn map.distinct

theorem mem_delete {map : JsMap κ ν} {key : κ} {entry : κ × ν} :
    entry ∈ (map.delete key).entries ↔ entry ∈ map.entries ∧ entry.1 ≠ key := by
  simp [delete]

omit [DecidableEq κ] in
theorem mem_filter {map : JsMap κ ν} {keep : κ → Bool} {entry : κ × ν} :
    entry ∈ (map.filter keep).entries ↔ entry ∈ map.entries ∧ keep entry.1 = true :=
  List.mem_filter

theorem get_eq_some {map : JsMap κ ν} {key : κ} {value : ν} :
    map.get key = some value ↔ (key, value) ∈ map.entries := by
  constructor
  · intro found
    obtain ⟨entry, isEntry, rfl⟩ := Option.map_eq_some_iff.mp found
    obtain rfl : entry.1 = key := by simpa using List.find?_some isEntry
    exact List.mem_of_find?_eq_some isEntry
  · intro member
    cases found : map.entries.find? fun entry => entry.1 = key with
    | none => exact absurd (decide_eq_true rfl) (List.find?_eq_none.mp found _ member)
    | some entry =>
        have sameKey : entry.1 = key := by simpa using List.find?_some found
        have same : entry = (key, value) := List.inj_on_of_nodup_map map.distinct
          (List.mem_of_find?_eq_some found) member sameKey
        rw [get, found, same]
        rfl

theorem get_eq_none {map : JsMap κ ν} {key : κ} :
    map.get key = none ↔ ∀ entry ∈ map.entries, entry.1 ≠ key := by
  simp [get]

theorem get_delete {map : JsMap κ ν} {key other : κ} (apart : key ≠ other) :
    (map.delete key).get other = map.get other := by
  cases found : map.get other with
  | none =>
      refine get_eq_none.mpr fun entry member => ?_
      exact get_eq_none.mp found entry (mem_delete.mp member).1
  | some value =>
      exact get_eq_some.mpr (mem_delete.mpr ⟨get_eq_some.mp found, Ne.symm apart⟩)

theorem get_set (map : JsMap κ ν) (key other : κ) (value : ν) :
    (map.set key value).get other = if other = key then some value else map.get other := by
  by_cases same : other = key
  · rw [if_pos same, same]
    exact get_eq_some.mpr (mem_set.mpr (.inl rfl))
  · rw [if_neg same]
    cases found : map.get other with
    | none =>
        refine get_eq_none.mpr fun entry member => ?_
        rcases mem_set.mp member with rfl | ⟨earlier, _⟩
        · exact Ne.symm same
        · exact get_eq_none.mp found entry earlier
    | some old =>
        exact get_eq_some.mpr (mem_set.mpr (.inr ⟨get_eq_some.mp found, same⟩))

theorem get_delete_eq (map : JsMap κ ν) (key other : κ) :
    (map.delete key).get other = if other = key then none else map.get other := by
  by_cases same : other = key
  · rw [if_pos same, same]
    exact get_eq_none.mpr fun entry member => (mem_delete.mp member).2
  · rw [if_neg same, get_delete (Ne.symm same)]

theorem filter_setIn (entries : List (κ × ν)) {key other : κ} (value : ν) (apart : key ≠ other) :
    (setIn entries key value).filter (fun entry => entry.1 ≠ other) =
      setIn (entries.filter fun entry => entry.1 ≠ other) key value := by
  induction entries with
  | nil => simp [setIn, apart]
  | cons entry rest ih =>
      rw [setIn]
      split
      · rename_i here
        simp [apart, setIn, here]
      · rename_i elsewhere
        by_cases dropped : entry.1 = other
        · simpa [dropped] using ih
        · simpa [dropped, setIn, elsewhere] using ih

theorem filter_setIn_same (entries : List (κ × ν)) (key : κ) (value : ν) :
    (setIn entries key value).filter (fun entry => entry.1 ≠ key) =
      entries.filter fun entry => entry.1 ≠ key := by
  induction entries with
  | nil => simp [setIn]
  | cons entry rest ih =>
      rw [setIn]
      split
      · rename_i here
        simp [here]
      · rename_i elsewhere
        simpa [elsewhere] using ih

theorem delete_set (map : JsMap κ ν) {key other : κ} (value : ν) (apart : key ≠ other) :
    (map.set key value).delete other = (map.delete other).set key value := by
  simp only [set, delete, mk.injEq]
  exact filter_setIn map.entries value apart

theorem delete_set_same (map : JsMap κ ν) (key : κ) (value : ν) :
    (map.set key value).delete key = map.delete key := by
  simp only [set, delete, mk.injEq]
  exact filter_setIn_same map.entries key value

theorem ofEntries_snoc (entries : List (κ × ν)) (entry : κ × ν) :
    ofEntries (entries ++ [entry]) = (ofEntries entries).set entry.1 entry.2 := by
  rw [ofEntries, List.foldl_append]
  rfl

/-- Of several entries with one key the last one counts. -/
theorem mem_ofEntries {entries : List (κ × ν)} {entry : κ × ν} :
    entry ∈ (ofEntries entries).entries ↔
      (entries.filter fun other => other.1 = entry.1).getLast? = some entry := by
  induction entries using List.reverseRecOn with
  | nil => simp [ofEntries, empty]
  | append_singleton entries last ih =>
      rw [ofEntries_snoc, mem_set, ih, List.filter_append]
      by_cases sameKey : last.1 = entry.1
      · have matching : ([last].filter fun other => other.1 = entry.1) = [last] :=
          List.filter_cons_of_pos (by simpa using sameKey)
        rw [matching, List.getLast?_concat, Option.some_inj]
        constructor
        · rintro (rfl | ⟨_, apart⟩)
          · rfl
          · exact absurd sameKey.symm apart
        · rintro rfl
          exact .inl rfl
      · have unmatched : ([last].filter fun other => other.1 = entry.1) = [] :=
          List.filter_cons_of_neg (by simpa using sameKey)
        rw [unmatched, List.append_nil]
        constructor
        · rintro (rfl | ⟨member, _⟩)
          · exact absurd rfl sameKey
          · exact member
        · exact fun member => .inr ⟨member, Ne.symm sameKey⟩

end JsMap
