import Mathlib.Data.List.Basic
import Mathlib.Data.Nat.Bitwise

/-! The bits of a list of bytes, the highest bit of the first byte first. -/

namespace LeadingBits

def bits (byte : Nat) : List Bool := (List.range 8).map fun place => byte.testBit (7 - place)

def bitsOf (bytes : List Nat) : List Bool := bytes.flatMap bits

/-- The two begin with the same bits. -/
def Agree (count : Nat) (first second : List Nat) : Prop :=
  (bitsOf first).take count = (bitsOf second).take count

instance (count : Nat) (first second : List Nat) : Decidable (Agree count first second) :=
  inferInstanceAs (Decidable (_ = _))

/-- The mask of the highest bits of a byte. -/
def mask (count : Nat) : Nat := (0xff <<< (8 - count)) &&& 0xff

theorem length_bits (byte : Nat) : (bits byte).length = 8 := by
  rw [bits, List.length_map, List.length_range]

theorem take_bits_eq_iff {count first second : Nat} :
    (bits first).take count = (bits second).take count ↔
      ∀ place < 8, place < count → first.testBit (7 - place) = second.testBit (7 - place) := by
  simp only [bits, ← List.map_take, List.take_range, List.map_inj_left, List.mem_range, Nat.lt_min]
  constructor
  · exact fun same place small counted => same place ⟨counted, small⟩
  · exact fun same place bounds => same place bounds.2 bounds.1

theorem testBit_mask (count place : Nat) :
    (mask count).testBit place = decide (8 - count ≤ place ∧ place < 8) := by
  have byte (place : Nat) : (0xff : Nat).testBit place = decide (place < 8) :=
    @Nat.testBit_two_pow_sub_one 8 place
  rw [mask, Nat.testBit_and, Nat.testBit_shiftLeft, byte, byte]
  by_cases low : 8 - count ≤ place
  · by_cases high : place < 8
    · simp [low, high, show place - (8 - count) < 8 by omega]
    · simp [high]
  · simp [low]

/-- Two bytes are the same under the mask if they begin with the same bits. -/
theorem masked_eq_iff {count first second : Nat} (bound : count ≤ 8) :
    first &&& mask count = second &&& mask count ↔
      (bits first).take count = (bits second).take count := by
  rw [take_bits_eq_iff]
  constructor
  · intro same place small counted
    have here := congrArg (fun value => value.testBit (7 - place)) same
    simpa [Nat.testBit_and, testBit_mask, show 8 - count ≤ 7 - place by omega,
      show 7 - place < 8 by omega] using here
  · intro same
    refine Nat.eq_of_testBit_eq fun place => ?_
    rw [Nat.testBit_and, Nat.testBit_and, testBit_mask]
    by_cases within : 8 - count ≤ place ∧ place < 8
    · have here := same (7 - place) (by omega) (by omega)
      rw [show 7 - (7 - place) = place by omega] at here
      rw [here]
    · rw [decide_eq_false within, Bool.and_false, Bool.and_false]

theorem agree_cons {count byte other : Nat} {bytes others : List Nat} :
    Agree count (byte :: bytes) (other :: others) ↔
      (bits byte).take count = (bits other).take count ∧ Agree (count - 8) bytes others := by
  simp only [Agree, bitsOf, List.flatMap_cons, List.take_append, length_bits]
  constructor
  · intro same
    have lengths : ((bits byte).take count).length = ((bits other).take count).length := by
      rw [List.length_take, List.length_take, length_bits, length_bits]
    exact List.append_inj same lengths
  · rintro ⟨first, later⟩
    rw [first, later]

theorem agree_zero (first second : List Nat) : Agree 0 first second := rfl

theorem bits_injective {first second : Nat} (firstBound : first < 256) (secondBound : second < 256)
    (same : bits first = bits second) : first = second := by
  have taken : (bits first).take 8 = (bits second).take 8 := by rw [same]
  refine Nat.eq_of_testBit_eq fun place => ?_
  by_cases small : place < 8
  · have here := take_bits_eq_iff.mp taken (7 - place) (by omega) (by omega)
    rwa [show 7 - (7 - place) = place by omega] at here
  · have bound : 256 ≤ 2 ^ place := Nat.pow_le_pow_right (show 2 > 0 by omega) (show 8 ≤ place by omega)
    rw [Nat.testBit_lt_two_pow (by omega), Nat.testBit_lt_two_pow (by omega)]

/-- Over the whole length only equal lists agree. -/
theorem eq_of_agree {first second : List Nat} (sameLength : first.length = second.length)
    (firstBytes : ∀ byte ∈ first, byte < 256) (secondBytes : ∀ byte ∈ second, byte < 256)
    (agree : Agree (first.length * 8) first second) : first = second := by
  induction first generalizing second with
  | nil => exact (List.length_eq_zero_iff.mp sameLength.symm).symm
  | cons byte bytes ih =>
      cases second with
      | nil => cases sameLength
      | cons other others =>
          obtain ⟨here, later⟩ := agree_cons.mp agree
          rw [List.length_cons, Nat.add_mul, Nat.add_sub_cancel] at later
          rw [List.length_cons, List.take_of_length_le (by rw [length_bits]; omega),
            List.take_of_length_le (by rw [length_bits]; omega)] at here
          have same := bits_injective (firstBytes byte List.mem_cons_self)
            (secondBytes other List.mem_cons_self) here
          have rest := ih (Nat.succ.inj sameLength)
            (fun byte member => firstBytes byte (List.mem_cons_of_mem _ member))
            (fun byte member => secondBytes byte (List.mem_cons_of_mem _ member)) later
          rw [same, rest]

end LeadingBits
