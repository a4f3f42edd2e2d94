import Mathlib.Data.List.Basic

/-! Pages by offset: `skip` and `take` over rows that stay as they are. -/

namespace OffsetPaging

variable {α : Type*}

/-- The pages are counted from one. -/
def pageOf (rows : List α) (page size : Nat) : List α := (rows.drop ((page - 1) * size)).take size

/-- How many pages of a size there are. -/
def pageCount (total size : Nat) : Nat := (total + size - 1) / size

/-- The first pages, one after the other. -/
def firstPages (rows : List α) (size count : Nat) : List α :=
  (List.range count).flatMap fun index => pageOf rows (index + 1) size

theorem firstPages_eq (rows : List α) (size count : Nat) :
    firstPages rows size count = rows.take (count * size) := by
  induction count with
  | zero => simp [firstPages]
  | succ count ih =>
      rw [firstPages, List.range_succ, List.flatMap_append, ← firstPages, ih, Nat.succ_mul,
        List.take_add]
      simp [pageOf]

theorem total_le_pages {total size : Nat} (positive : 0 < size) :
    total ≤ pageCount total size * size := by
  have whole := Nat.div_add_mod (total + size - 1) size
  have remainder := Nat.mod_lt (total + size - 1) positive
  rw [pageCount, Nat.mul_comm]
  omega

/-- The pages together are the rows, each in its place. -/
theorem firstPages_all (rows : List α) {size : Nat} (positive : 0 < size) :
    firstPages rows size (pageCount rows.length size) = rows := by
  rw [firstPages_eq]
  exact List.take_of_length_le (total_le_pages positive)

theorem pageOf_past {rows : List α} {page size : Nat} (positive : 0 < size)
    (past : pageCount rows.length size < page) : pageOf rows page size = [] := by
  have enough : rows.length ≤ (page - 1) * size :=
    Nat.le_trans (total_le_pages positive) (Nat.mul_le_mul_right size (by omega))
  rw [pageOf, List.drop_eq_nil_of_le enough, List.take_nil]

end OffsetPaging
