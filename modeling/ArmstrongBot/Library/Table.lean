import Mathlib.Data.List.Nodup
import Mathlib.Data.List.Basic
import Mathlib.Data.Fintype.EquivFin

/-! Tables of rows that a key tells apart. -/

structure Table {ρ κ : Type*} (key : ρ → κ) where
  rows : List ρ
  distinct : (rows.map key).Nodup

namespace Table

variable {ρ κ : Type*} {key : ρ → κ}

def empty : Table key := { rows := [], distinct := List.nodup_nil }

variable [DecidableEq κ]

def find (table : Table key) (id : κ) : Option ρ := table.rows.find? fun row => key row = id

def insert (table : Table key) (row : ρ) : Option (Table key) :=
  if fresh : key row ∉ table.rows.map key then
    some
      { rows := table.rows ++ [row]
        distinct := by
          rw [List.map_append, List.map_singleton]
          refine List.nodup_append.mpr ⟨table.distinct, List.nodup_singleton _, ?_⟩
          rintro known member other isNew rfl
          rw [List.mem_singleton.mp isNew] at member
          exact fresh member }
  else none

def insertAll (table : Table key) : List ρ → Option (Table key)
  | [] => some table
  | row :: rest => (table.insert row).bind fun next => next.insertAll rest

/-- What is written leaves the key alone. -/
def update (table : Table key) (selects : ρ → Bool) (change : ρ → ρ)
    (sameKey : ∀ row, key (change row) = key row) : Table key :=
  { rows := table.rows.map fun row => if selects row then change row else row
    distinct := by
      have sameKeys : (key ∘ fun row => if selects row then change row else row) = key := by
        funext row
        simp only [Function.comp_apply]
        split
        · exact sameKey row
        · rfl
      rw [List.map_map, sameKeys]
      exact table.distinct }

def discard (table : Table key) (selects : ρ → Bool) : Table key :=
  { rows := table.rows.filter fun row => !selects row
    distinct := (List.filter_sublist.map key).nodup table.distinct }

/-- The update of one row by its key rejects where there is none. -/
def change (table : Table key) (id : κ) (change : ρ → ρ)
    (sameKey : ∀ row, key (change row) = key row) : Option (Table key) :=
  (table.find id).map fun _ => table.update (fun row => key row = id) change sameKey

/-- Writes the row, or changes the one that has its key. -/
def upsert (table : Table key) (row : ρ) (change : ρ → ρ)
    (sameKey : ∀ row, key (change row) = key row) : Table key :=
  (table.insert row).getD (table.update (fun other => key other = key row) change sameKey)

theorem find_eq_some_iff {table : Table key} {id : κ} {row : ρ} :
    table.find id = some row ↔ row ∈ table.rows ∧ key row = id := by
  constructor
  · intro found
    exact ⟨List.mem_of_find?_eq_some found, by simpa using List.find?_some found⟩
  · rintro ⟨member, rfl⟩
    cases found : table.find (key row) with
    | none => simpa using List.find?_eq_none.mp found row member
    | some other =>
        have isKey : key other = key row := by simpa using List.find?_some found
        rw [List.inj_on_of_nodup_map table.distinct (List.mem_of_find?_eq_some found) member isKey]

theorem find_key {table : Table key} {row : ρ} (member : row ∈ table.rows) :
    table.find (key row) = some row := find_eq_some_iff.mpr ⟨member, rfl⟩

theorem key_of_find {table : Table key} {id : κ} {row : ρ} (found : table.find id = some row) :
    key row = id := (find_eq_some_iff.mp found).2

theorem find_update (table : Table key) (selects : ρ → Bool) (change : ρ → ρ)
    (sameKey : ∀ row, key (change row) = key row) (id : κ) :
    (table.update selects change sameKey).find id =
      (table.find id).map fun row => if selects row then change row else row := by
  have sameKeys (row : ρ) : key (if selects row then change row else row) = key row := by
    split
    · exact sameKey row
    · rfl
  simp only [find, update, List.find?_map, Function.comp_def, sameKeys]

theorem find_change {table next : Table key} {id : κ} {change : ρ → ρ}
    {sameKey : ∀ row, key (change row) = key row}
    (changed : table.change id change sameKey = some next) :
    (table.find id).isSome ∧
      ∀ other, next.find other = (table.find other).map fun row =>
        if other = id then change row else row := by
  obtain ⟨row, found, rfl⟩ := Option.map_eq_some_iff.mp changed
  refine ⟨by rw [found]; rfl, ?_⟩
  intro other
  rw [find_update]
  cases isRow : table.find other with
  | none => rfl
  | some later =>
      have sameId := key_of_find isRow
      simp [sameId]

theorem insert_eq_some_iff {table next : Table key} {row : ρ} :
    table.insert row = some next ↔
      table.find (key row) = none ∧ next.rows = table.rows ++ [row] := by
  have absent : table.find (key row) = none ↔ key row ∉ table.rows.map key := by
    simp [find]
  rw [absent, insert]
  split
  · rename_i fresh
    constructor
    · intro inserted
      rw [← Option.some.inj inserted]
      exact ⟨fresh, rfl⟩
    · rintro ⟨_, rows⟩
      cases next
      simp_all
  · rename_i known
    constructor
    · intro inserted
      cases inserted
    · rintro ⟨fresh, _⟩
      exact absurd fresh known

theorem exists_insert {table : Table key} (row : ρ) (fresh : table.find (key row) = none) :
    ∃ next, table.insert row = some next := by
  have isNew : key row ∉ table.rows.map key := by
    simpa [find] using fresh
  rw [insert, dif_pos isNew]
  exact ⟨_, rfl⟩

theorem exists_fresh [Infinite κ] (table : Table key) : ∃ id, table.find id = none := by
  obtain ⟨id, isNew⟩ := Infinite.exists_notMem_finset (table.rows.map key).toFinset
  exact ⟨id, by simpa [find] using isNew⟩

theorem find_insert {table next : Table key} {row : ρ} (inserted : table.insert row = some next)
    (id : κ) : next.find id = if key row = id then some row else table.find id := by
  obtain ⟨fresh, rows⟩ := insert_eq_some_iff.mp inserted
  rw [find, rows, List.find?_append]
  split
  · rename_i same
    rw [← same]
    rw [find] at fresh
    simp [fresh]
  · rename_i different
    simp [find, different]

theorem mem_insert {table next : Table key} {row other : ρ}
    (inserted : table.insert row = some next) :
    other ∈ next.rows ↔ other ∈ table.rows ∨ other = row := by
  rw [(insert_eq_some_iff.mp inserted).2, List.mem_append, List.mem_singleton]

theorem mem_update {table : Table key} {selects : ρ → Bool} {change : ρ → ρ}
    {sameKey : ∀ row, key (change row) = key row} {other : ρ} :
    other ∈ (table.update selects change sameKey).rows ↔
      ∃ row ∈ table.rows, (if selects row then change row else row) = other :=
  List.mem_map

omit [DecidableEq κ] in
theorem mem_discard {table : Table key} {selects : ρ → Bool} {row : ρ} :
    row ∈ (table.discard selects).rows ↔ row ∈ table.rows ∧ selects row = false := by
  simp [discard]

theorem insertAll_rows {table next : Table key} {rows : List ρ}
    (inserted : table.insertAll rows = some next) : next.rows = table.rows ++ rows := by
  induction rows generalizing table with
  | nil =>
      obtain rfl := Option.some.inj inserted
      simp
  | cons row rest ih =>
      obtain ⟨first, isFirst, others⟩ := Option.bind_eq_some_iff.mp inserted
      rw [ih others, (insert_eq_some_iff.mp isFirst).2, List.append_assoc]
      rfl

theorem find_upsert (table : Table key) (row : ρ) (change : ρ → ρ)
    (sameKey : ∀ row, key (change row) = key row) (id : κ) :
    (table.upsert row change sameKey).find id =
      if key row = id then some ((table.find id).elim row change) else table.find id := by
  rw [upsert]
  cases inserted : table.insert row with
  | some next =>
      rw [Option.getD_some, find_insert inserted]
      split
      · rename_i same
        subst same
        rw [(insert_eq_some_iff.mp inserted).1, Option.elim_none]
      · rfl
  | none =>
      have known : key row ∈ table.rows.map key := by
        by_contra fresh
        rw [insert, dif_pos fresh] at inserted
        cases inserted
      rw [Option.getD_none, find_update]
      split
      · rename_i same
        subst same
        obtain ⟨other, member, isKey⟩ := List.mem_map.mp known
        have found := find_eq_some_iff.mpr ⟨member, isKey⟩
        simp [found, isKey]
      · rename_i apart
        cases found : table.find id with
        | none => rfl
        | some other =>
            have isKey := key_of_find found
            rw [Option.map_some, if_neg (by simpa [isKey] using Ne.symm apart)]

end Table
