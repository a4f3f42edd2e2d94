import Mathlib.Data.List.Perm.Basic
import Mathlib.Order.Basic

/-! What a query for the newest rows returns: the rows in descending order of a key, where rows of
one key may come in any order. -/

namespace Listing

variable {ρ κ : Type*}

structure Descending [LE κ] (key : ρ → κ) (rows listed : List ρ) : Prop where
  perm : listed.Perm rows
  ordered : listed.Pairwise fun first second => key second ≤ key first

instance [LE κ] [DecidableEq ρ] [DecidableRel (LE.le : κ → κ → Prop)] (key : ρ → κ)
    (rows listed : List ρ) : Decidable (Descending key rows listed) :=
  decidable_of_iff
    (listed.Perm rows ∧ listed.Pairwise fun first second => key second ≤ key first)
    ⟨fun both => ⟨both.1, both.2⟩, fun descending => ⟨descending.perm, descending.ordered⟩⟩

/-- A page is all the rows of a kind exactly when it has no other row and none is behind it. -/
theorem take_perm_filter_iff {rows listed : List ρ} (perm : listed.Perm rows) (keep : ρ → Bool)
    (size : Nat) :
    (listed.take size).Perm (rows.filter keep) ↔
      (∀ row ∈ listed.take size, keep row = true) ∧ ∀ row ∈ listed.drop size, keep row = false := by
  have parts : (rows.filter keep).Perm
      ((listed.take size).filter keep ++ (listed.drop size).filter keep) := by
    rw [← List.filter_append, List.take_append_drop]
    exact (perm.filter keep).symm
  constructor
  · intro page
    have kept : ∀ row ∈ listed.take size, keep row = true := fun row member =>
      (List.mem_filter.mp (page.mem_iff.mp member)).2
    refine ⟨kept, ?_⟩
    have lengths := (page.trans parts).length_eq
    rw [List.filter_eq_self.mpr kept, List.length_append] at lengths
    have none : ((listed.drop size).filter keep).length = 0 := by omega
    simpa using List.filter_eq_nil_iff.mp (List.length_eq_zero_iff.mp none)
  · rintro ⟨kept, dropped⟩
    have none : (listed.drop size).filter keep = [] :=
      List.filter_eq_nil_iff.mpr (by simpa using dropped)
    rw [List.filter_eq_self.mpr kept, none, List.append_nil] at parts
    exact parts.symm

/-- Rows in descending order are in ascending order only where all keys are equal. -/
theorem ascending_iff [PartialOrder κ] {key : ρ → κ} {listed : List ρ}
    (ordered : listed.Pairwise fun first second => key second ≤ key first) :
    listed.Pairwise (fun first second => key first ≤ key second) ↔
      ∀ first ∈ listed, ∀ second ∈ listed, key first = key second := by
  constructor
  · intro ascending
    have equal : listed.Pairwise fun first second => key first = key second :=
      (ascending.and ordered).imp fun both => le_antisymm both.1 both.2
    exact equal.forall_of_forall_of_flip (fun _ _ => rfl) (equal.imp Eq.symm)
  · intro equal
    exact List.pairwise_of_forall_mem_list fun first member second later =>
      (equal first member second later).le

end Listing
