import ArmstrongBot.Library.JsNumber
import Mathlib.Algebra.Group.Int.Defs

/-! Integers among the numbers, and the operator `<=`. -/

namespace JsNumber

open JsText

def valueOf (digits : List Nat) : Nat := digits.foldl (fun value digit => value * 10 + digit) 0

/-- A number is its coefficient times ten to the power of its place. -/
def Number.coefficient : Number → Int
  | .zero => 0
  | .decimal value =>
      let magnitude : Nat := valueOf (value.digits.map Fin.val)
      if value.negative then -magnitude else magnitude

def Number.place : Number → Int
  | .zero => 0
  | .decimal value => value.exponent - value.digits.length

/-- `left <= right` -/
def Number.le (left right : Number) : Bool :=
  let least := min left.place right.place
  decide (left.coefficient * 10 ^ (left.place - least).toNat ≤
    right.coefficient * 10 ^ (right.place - least).toNat)

def Number.ofInt (value : Int) : Number :=
  match Number.ofNat value.natAbs with
  | .zero => .zero
  | .decimal magnitude => .decimal { magnitude with negative := decide (value < 0) }

/-! The digits of a natural number. -/

def digitsOf (value : Nat) : List Nat := (natText value).map fun code => code.val - 48

theorem foldl_digits (digits : List Nat) (start : Nat) :
    digits.foldl (fun value digit => value * 10 + digit) start =
      start * 10 ^ digits.length + valueOf digits := by
  induction digits generalizing start with
  | nil => simp [valueOf]
  | cons digit digits ih =>
      have alone : valueOf (digit :: digits) = digit * 10 ^ digits.length + valueOf digits := by
        rw [valueOf, List.foldl_cons, ih, Nat.zero_mul, Nat.zero_add]
      rw [List.foldl_cons, ih, alone, List.length_cons, Nat.pow_succ, Nat.add_mul, Nat.mul_assoc,
        Nat.mul_comm 10, Nat.add_assoc]

theorem valueOf_cons (digit : Nat) (digits : List Nat) :
    valueOf (digit :: digits) = digit * 10 ^ digits.length + valueOf digits := by
  rw [valueOf, List.foldl_cons, foldl_digits, Nat.zero_mul, Nat.zero_add]

theorem valueOf_append (front back : List Nat) :
    valueOf (front ++ back) = valueOf front * 10 ^ back.length + valueOf back := by
  rw [valueOf, List.foldl_append, foldl_digits]
  rfl

theorem valueOf_zeros {digits : List Nat} (zeros : ∀ digit ∈ digits, digit = 0) :
    valueOf digits = 0 := by
  induction digits with
  | nil => rfl
  | cons digit digits ih =>
      rw [valueOf_cons, zeros digit List.mem_cons_self,
        ih fun other member => zeros other (List.mem_cons_of_mem _ member)]
      simp

theorem valueOf_lt {digits : List Nat} (small : ∀ digit ∈ digits, digit < 10) :
    valueOf digits < 10 ^ digits.length := by
  induction digits with
  | nil => simp [valueOf]
  | cons digit digits ih =>
      have rest := ih fun other member => small other (List.mem_cons_of_mem _ member)
      have first := small digit List.mem_cons_self
      have bound : (digit + 1) * 10 ^ digits.length ≤ 10 * 10 ^ digits.length :=
        Nat.mul_le_mul_right _ first
      rw [valueOf_cons, List.length_cons, Nat.pow_succ, Nat.mul_comm _ 10]
      rw [Nat.add_mul, Nat.one_mul] at bound
      omega

theorem valueOf_digitsOf (value : Nat) : valueOf (digitsOf value) = value := by
  rw [valueOf, digitsOf, List.foldl_map]
  exact readNat_natText value

theorem digitsOf_small (value : Nat) : ∀ digit ∈ digitsOf value, digit < 10 := by
  intro digit member
  obtain ⟨code, inText, rfl⟩ := List.mem_map.mp member
  have bounds := natText_isDigit value code inText
  simp only [isDigit, Bool.and_eq_true, decide_eq_true_eq] at bounds
  omega

/-- The text of a number has no leading zero. -/
theorem digitsOf_head {value : Nat} (positive : 0 < value) : (digitsOf value).head? ≠ some 0 := by
  intro leading
  obtain ⟨rest, digits⟩ := List.head?_eq_some_iff.mp leading
  have same := valueOf_digitsOf value
  rw [digits, valueOf_cons, Nat.zero_mul, Nat.zero_add] at same
  have bound : value < 10 ^ rest.length := by
    rw [← same]
    refine valueOf_lt fun digit member => digitsOf_small value digit ?_
    rw [digits]
    exact List.mem_cons_of_mem _ member
  have shorter : rest.length + 1 = (natText value).length := by
    rw [← List.length_cons (a := 0), ← digits, digitsOf, List.length_map]
  by_cases nothing : rest.length = 0
  · rw [nothing] at bound
    omega
  · have fits := natText_length_le (by omega) bound
    omega

/-! What the number of an integer is worth. -/

theorem ofNat_eq_zero {digit : Nat} (small : digit < 10) (zero : Fin.ofNat 10 digit = 0) :
    digit = 0 := by
  have value := congrArg Fin.val zero
  rw [Fin.val_ofNat, Nat.mod_eq_of_lt small] at value
  exact value

theorem map_ofNat_val {digits : List Nat} (small : ∀ digit ∈ digits, digit < 10) :
    (digits.map (Fin.ofNat 10)).map Fin.val = digits := by
  induction digits with
  | nil => rfl
  | cons digit digits ih =>
      rw [List.map_cons, List.map_cons, ih fun other member => small other (List.mem_cons_of_mem _ member),
        Fin.val_ofNat, Nat.mod_eq_of_lt (small digit List.mem_cons_self)]

theorem ofDigits_significant {digits : List Nat} (small : ∀ digit ∈ digits, digit < 10)
    (nonempty : digits ≠ []) (leading : digits.head? ≠ some 0) (trailing : digits.getLast? ≠ some 0)
    (exponent : Int) :
    ∃ value : Decimal, Number.ofDigits digits exponent = .decimal value ∧ value.negative = false ∧
      value.digits.map Fin.val = digits ∧ value.exponent = exponent := by
  have significant : digits.map (Fin.ofNat 10) ≠ [] ∧ (digits.map (Fin.ofNat 10)).head? ≠ some 0 ∧
      (digits.map (Fin.ofNat 10)).getLast? ≠ some 0 := by
    refine ⟨by simpa using nonempty, ?_, ?_⟩
    · rw [List.head?_map]
      intro zero
      obtain ⟨digit, isHead, isZero⟩ := Option.map_eq_some_iff.mp zero
      rw [ofNat_eq_zero (small digit (List.mem_of_head? isHead)) isZero] at isHead
      exact leading isHead
    · rw [List.getLast?_map]
      intro zero
      obtain ⟨digit, isLast, isZero⟩ := Option.map_eq_some_iff.mp zero
      rw [ofNat_eq_zero (small digit (List.mem_of_getLast? isLast)) isZero] at isLast
      exact trailing isLast
  refine ⟨_, dif_pos significant, rfl, ?_, rfl⟩
  exact map_ofNat_val small

/-- The coefficient of a natural number is that number without its final zeros. -/
theorem ofNat_worth (value : Nat) :
    (value = 0 ∧ Number.ofNat value = .zero) ∨
      ∃ decimal zeros, Number.ofNat value = .decimal decimal ∧ decimal.negative = false ∧
        decimal.exponent - decimal.digits.length = (zeros : Nat) ∧
        valueOf (decimal.digits.map Fin.val) * 10 ^ zeros = value := by
  by_cases nothing : value = 0
  · subst nothing
    exact Or.inl ⟨rfl, by decide⟩
  · right
    have positive : 0 < value := Nat.pos_of_ne_zero nothing
    have worth := valueOf_digitsOf value
    generalize digitsEq : digitsOf value = digits at worth
    have small : ∀ digit ∈ digits, digit < 10 := digitsEq ▸ digitsOf_small value
    have leading : digits.head? ≠ some 0 := digitsEq ▸ digitsOf_head positive
    have parts := List.rdropWhile_append_rtakeWhile (p := fun digit => decide (digit = 0)) (l := digits)
    have zeros : valueOf (digits.rtakeWhile fun digit => decide (digit = 0)) = 0 := by
      refine valueOf_zeros fun digit member => ?_
      simpa using List.mem_rtakeWhile_imp member
    have last := List.rdropWhile_last_not (fun digit => decide (digit = 0)) digits
    have isPrefix := List.rdropWhile_prefix (fun digit => decide (digit = 0)) (l := digits)
    have ofNatEq : Number.ofNat value =
        Number.ofDigits (digits.rdropWhile fun digit => decide (digit = 0)) digits.length := by
      rw [← digitsEq]
      rfl
    rw [ofNatEq]
    generalize (digits.rdropWhile fun digit => decide (digit = 0)) = front at parts last isPrefix
    generalize (digits.rtakeWhile fun digit => decide (digit = 0)) = back at parts zeros
    subst parts
    rw [valueOf_append, zeros, Nat.add_zero] at worth
    have nonempty : front ≠ [] := by
      rintro rfl
      simp [valueOf] at worth
      exact nothing worth.symm
    have smallFront : ∀ digit ∈ front, digit < 10 := fun digit member =>
      small digit (List.mem_append_left back member)
    obtain ⟨decimal, isDecimal, notNegative, sameDigits, sameExponent⟩ :=
      ofDigits_significant smallFront nonempty
      (by rwa [List.head?_append_of_ne_nil _ nonempty] at leading)
      (by
        rw [List.getLast?_eq_getLast_of_ne_nil nonempty]
        simpa using last nonempty)
      ((front ++ back).length : Int)
    refine ⟨decimal, back.length, isDecimal, notNegative, ?_, by rw [sameDigits, worth]⟩
    have lengths := congrArg List.length sameDigits
    rw [List.length_map] at lengths
    rw [sameExponent, lengths, List.length_append]
    omega

theorem Number.ofNat_injective {left right : Nat} (same : Number.ofNat left = Number.ofNat right) :
    left = right := by
  rcases ofNat_worth left with ⟨isZero, left'⟩ | ⟨first, zeros, isFirst, _, place, worth⟩ <;>
    rcases ofNat_worth right with ⟨other, right'⟩ | ⟨second, others, isSecond, _, place', worth'⟩
  · rw [isZero, other]
  · rw [left', isSecond] at same
    cases same
  · rw [isFirst, right'] at same
    cases same
  · rw [isFirst, isSecond] at same
    obtain rfl := Number.decimal.inj same
    have sameZeros : zeros = others := by omega
    rw [← worth, ← worth', sameZeros]

theorem ofInt_worth (value : Int) :
    ∃ zeros : Nat, (Number.ofInt value).place = zeros ∧
      (Number.ofInt value).coefficient * 10 ^ zeros = value := by
  rcases ofNat_worth value.natAbs with ⟨nothing, isZero⟩ | ⟨decimal, zeros, isDecimal, _, place, worth⟩
  · refine ⟨0, ?_⟩
    rw [Number.ofInt, isZero]
    simp only [Number.place, Number.coefficient]
    omega
  · refine ⟨zeros, ?_⟩
    rw [Number.ofInt, isDecimal]
    refine ⟨place, ?_⟩
    have magnitude : (valueOf (decimal.digits.map Fin.val) : Int) * 10 ^ zeros = value.natAbs := by
      rw [← worth]
      push_cast
      rfl
    simp only [Number.coefficient, decide_eq_true_eq]
    split
    · rw [Int.neg_mul, magnitude]
      omega
    · rw [magnitude]
      omega

theorem ofInt_le (left right : Int) :
    (Number.ofInt left).le (Number.ofInt right) = decide (left ≤ right) := by
  obtain ⟨leftZeros, leftPlace, leftWorth⟩ := ofInt_worth left
  obtain ⟨rightZeros, rightPlace, rightWorth⟩ := ofInt_worth right
  have scaled (coefficient : Int) {zeros least : Nat} (below : least ≤ zeros) :
      coefficient * 10 ^ (zeros - least) * 10 ^ least = coefficient * 10 ^ zeros := by
    rw [Int.mul_assoc, ← Int.pow_add, Nat.sub_add_cancel below]
  have least : min (leftZeros : Int) rightZeros = (min leftZeros rightZeros : Nat) := by omega
  have exponents (zeros least : Nat) : ((zeros : Int) - least).toNat = zeros - least := by omega
  simp only [Number.le, leftPlace, rightPlace, least, exponents]
  rw [decide_eq_decide]
  have powers : (0 : Int) < 10 ^ min leftZeros rightZeros := Int.pow_pos (by decide)
  rw [← Int.mul_le_mul_right powers, scaled _ (Nat.min_le_left ..), scaled _ (Nat.min_le_right ..),
    leftWorth, rightWorth]

end JsNumber
