import Mathlib.Algebra.Group.Basic
import Mathlib.Algebra.BigOperators.Group.List.Basic

/-! Measured numbers: exact rationals with the infinities and NaN of ECMAScript. Rounding is left
out. -/

inductive Quantity
  | finite (value : Rat)
  | infinite (negative : Bool)
  | nan
  deriving DecidableEq

namespace Quantity

def isFinite : Quantity → Bool
  | finite _ => true
  | _ => false

def toFinite : Quantity → Option Rat
  | finite value => some value
  | _ => none

def isInfinite : Quantity → Bool
  | infinite _ => true
  | _ => false

def ofNat (count : Nat) : Quantity := finite count

/-- `quantity < 0` -/
def isNegative : Quantity → Bool
  | finite value => decide (value < 0)
  | infinite negative => negative
  | nan => false

def plus : Quantity → Quantity → Quantity
  | nan, _ => nan
  | _, nan => nan
  | finite left, finite right => finite (left + right)
  | finite _, infinite negative => infinite negative
  | infinite negative, finite _ => infinite negative
  | infinite left, infinite right => if left = right then infinite left else nan

theorem plus_comm (left right : Quantity) : plus left right = plus right left := by
  cases left with
  | nan => cases right <;> rfl
  | finite left =>
      cases right with
      | finite right => exact congrArg finite (Rat.add_comm left right)
      | infinite _ => rfl
      | nan => rfl
  | infinite left =>
      cases right with
      | finite _ => rfl
      | nan => rfl
      | infinite right =>
          simp only [plus, eq_comm]
          split
          · rename_i same
            rw [same]
          · rfl

theorem plus_assoc (first second third : Quantity) :
    plus (plus first second) third = plus first (plus second third) := by
  cases first with
  | nan => rfl
  | finite first =>
      cases second with
      | nan => rfl
      | infinite second =>
          cases third with
          | finite _ => rfl
          | nan => rfl
          | infinite third => cases second <;> cases third <;> rfl
      | finite second =>
          cases third with
          | finite third => exact congrArg finite (Rat.add_assoc first second third)
          | infinite _ => rfl
          | nan => rfl
  | infinite first =>
      cases second with
      | nan => rfl
      | finite second => cases third <;> rfl
      | infinite second =>
          cases third with
          | nan => cases first <;> cases second <;> rfl
          | finite third => cases first <;> cases second <;> rfl
          | infinite third => cases first <;> cases second <;> cases third <;> rfl

theorem zero_plus (quantity : Quantity) : plus (finite 0) quantity = quantity := by
  cases quantity with
  | finite value => exact congrArg finite (Rat.zero_add value)
  | infinite _ => rfl
  | nan => rfl

instance : Zero Quantity := ⟨finite 0⟩
instance : Add Quantity := ⟨plus⟩

instance : AddCommMonoid Quantity where
  add_assoc := plus_assoc
  zero_add := zero_plus
  add_zero := fun quantity => (plus_comm quantity (finite 0)).trans (zero_plus quantity)
  add_comm := plus_comm
  nsmul := nsmulRec

theorem zero_eq : (0 : Quantity) = finite 0 := rfl

@[simp] theorem finite_add (left right : Rat) :
    finite left + finite right = finite (left + right) := rfl

@[simp] theorem ofNat_zero : ofNat 0 = 0 := rfl

theorem ofNat_add (left right : Nat) : ofNat (left + right) = ofNat left + ofNat right :=
  congrArg finite (Rat.natCast_add left right)

/-- A finite number is left as it is by zero alone. -/
theorem finite_add_eq_iff {value : Rat} {drift : Quantity} :
    finite value + drift = finite value ↔ drift = 0 := by
  constructor
  · intro same
    cases drift with
    | finite drift =>
        have values : value + drift = value + 0 := by
          rw [Rat.add_zero]
          exact finite.inj same
        exact congrArg finite (Rat.add_left_cancel value values)
    | infinite _ => cases same
    | nan => cases same
  · rintro rfl
    exact add_zero _

end Quantity
