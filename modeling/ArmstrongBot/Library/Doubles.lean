import ArmstrongBot.Library.JsMethods
import ArmstrongBot.Library.Quantities
import Mathlib.Data.List.TakeWhile

/-! Binary64: the rounding of a rational, and what `Number` and `parseInt` read from a text. Minus
zero is zero. -/

namespace Double

open JsText

def roundHalfEven (numerator denominator : Nat) : Nat :=
  let quotient := numerator / denominator
  let twice := 2 * (numerator % denominator)
  if denominator < twice ∨ (twice = denominator ∧ quotient % 2 = 1) then quotient + 1 else quotient

/-- The fraction divided by a power of two. -/
def scaled (numerator denominator : Nat) (exponent : Int) : Nat × Nat :=
  if 0 ≤ exponent then (numerator, denominator * 2 ^ exponent.toNat)
  else (numerator * 2 ^ (-exponent).toNat, denominator)

/-- The exponent that leaves a significand of 53 bits. -/
def exponentOf (numerator denominator : Nat) : Int :=
  let guess : Int := numerator.log2 - denominator.log2 - 52
  let fraction := scaled numerator denominator guess
  if fraction.1 < fraction.2 * 2 ^ 52 then guess - 1 else guess

def powerOfTwo (significand : Nat) (exponent : Int) : Rat :=
  if 0 ≤ exponent then (significand * 2 ^ exponent.toNat : Nat)
  else mkRat significand (2 ^ (-exponent).toNat)

/-- From here on there is no finite double. -/
def overflow : Nat := 2 ^ 1024

/-- The double nearest to a rational, of two the one with the even significand. -/
def nearest (value : Rat) : Quantity :=
  let exponent := max (-1074) (exponentOf value.num.natAbs value.den)
  let fraction := scaled value.num.natAbs value.den exponent
  let magnitude := powerOfTwo (roundHalfEven fraction.1 fraction.2) exponent
  if (overflow : Rat) ≤ magnitude then .infinite (decide (value < 0))
  else .finite (if value < 0 then -magnitude else magnitude)

/-- `left - right` -/
def minus : Quantity → Quantity → Quantity
  | .finite left, .finite right => nearest (left - right)
  | .finite _, .infinite negative => .infinite !negative
  | .infinite negative, .finite _ => .infinite negative
  | .infinite left, .infinite right => if left = right then .nan else .infinite left
  | .nan, _ => .nan
  | _, .nan => .nan

/-! `Number(text)`. -/

def signOf : JsString → Bool × JsString
  | [] => (false, [])
  | first :: rest =>
      if first = unit 45 then (true, rest)
      else if first = unit 43 then (false, rest) else (false, first :: rest)

def isNumeral (text : JsString) : Bool := text ≠ [] && text.all isDigit

def isExponentMark (code : CodeUnit) : Bool := code = unit 101 || code = unit 69

def exponentPart : JsString → Option Int
  | [] => some 0
  | _ :: rest =>
      let (negative, digits) := signOf rest
      if isNumeral digits then some (if negative then -(readNat digits : Int) else readNat digits)
      else none

def powerOfTen (coefficient : Nat) (exponent : Int) : Rat :=
  if 0 ≤ exponent then (coefficient * 10 ^ exponent.toNat : Nat)
  else mkRat coefficient (10 ^ (-exponent).toNat)

def unsignedDecimal (text : JsString) : Option Rat :=
  let mantissa := text.takeWhile fun code => !isExponentMark code
  let whole := mantissa.takeWhile (· ≠ unit 46)
  let fraction := (mantissa.dropWhile (· ≠ unit 46)).drop 1
  if isNumeral (whole ++ fraction) then
    (exponentPart (text.dropWhile fun code => !isExponentMark code)).map fun exponent =>
      powerOfTen (readNat (whole ++ fraction)) (exponent - fraction.length)
  else none

def radixOf (letter : CodeUnit) : Option Nat :=
  if letter = unit 120 ∨ letter = unit 88 then some 16
  else if letter = unit 111 ∨ letter = unit 79 then some 8
  else if letter = unit 98 ∨ letter = unit 66 then some 2
  else none

/-- The digits of a literal with a radix of its own. -/
def radixDigits : JsString → Option (Nat × JsString)
  | zero :: letter :: digits =>
      if zero = unit 48 then (radixOf letter).map fun radix => (radix, digits) else none
  | _ => none

def isDigitOf (radix : Nat) (code : CodeUnit) : Bool :=
  match hexValue code with
  | some value => value < radix
  | none => false

def readDigits (radix : Nat) (digits : JsString) : Nat :=
  digits.foldl (fun value code => value * radix + (hexValue code).getD 0) 0

def decimal (text : JsString) : Quantity :=
  let (negative, magnitude) := signOf text
  if magnitude = js "Infinity" then .infinite negative
  else match unsignedDecimal magnitude with
    | some value => nearest (if negative then -value else value)
    | none => .nan

def toNumber (text : JsString) : Quantity :=
  if trim text = [] then .finite 0
  else match radixDigits (trim text) with
    | some (radix, digits) =>
        if digits ≠ [] ∧ digits.all (isDigitOf radix) then nearest (readDigits radix digits) else .nan
    | none => decimal (trim text)

def stripHex : JsString → JsString
  | zero :: letter :: digits =>
      if zero = unit 48 ∧ (letter = unit 120 ∨ letter = unit 88) then digits
      else zero :: letter :: digits
  | text => text

/-- `parseInt(text, 16)` -/
def parseHex (text : JsString) : Quantity :=
  let (negative, unsigned) := signOf (text.dropWhile isSpace)
  let digits := (stripHex unsigned).takeWhile (isDigitOf 16)
  if digits = [] then .nan
  else nearest (if negative then -(readDigits 16 digits : Rat) else readDigits 16 digits)

/-- The integer that the bitwise operators see of a number, before it is cut to 32 bits. -/
def toInteger : Quantity → Int
  | .finite value => value.num.tdiv value.den
  | .infinite _ => 0
  | .nan => 0

/-- `(value >> shift) & 0xff` for shifts of at most 24 bits. -/
def byteAt (shift : Nat) (value : Quantity) : Nat := (toInteger value / (2 ^ shift : Nat) % 256).toNat

example : [toNumber (js ""), toNumber (js " 0x18 "), toNumber (js "8.5"), toNumber (js "2e1"), toNumber (js "1 2")] =
    [.finite 0, .finite 24, .finite (17 / 2), .finite 20, .nan] := by decide +kernel

/-! Integers of at most 53 bits are exact. -/

theorem scaled_neg (numerator denominator places : Nat) :
    scaled numerator denominator (-(places : Int)) = (numerator * 2 ^ places, denominator) := by
  rw [scaled]
  split
  · obtain rfl : places = 0 := by omega
    simp
  · rw [Int.neg_neg, Int.toNat_natCast]

theorem powerOfTwo_neg (value places : Nat) :
    powerOfTwo (value * 2 ^ places) (-(places : Int)) = value := by
  rw [powerOfTwo]
  split
  · obtain rfl : places = 0 := by omega
    simp
  · have positive : 2 ^ places ≠ 0 := Nat.ne_of_gt (Nat.pow_pos (by omega))
    have whole : mkRat (value * (2 ^ places : Nat)) (1 * 2 ^ places) = mkRat value 1 :=
      Rat.mkRat_mul_right positive
    rw [Nat.one_mul, Rat.mkRat_one] at whole
    rw [Int.neg_neg, Int.toNat_natCast, Int.natCast_mul, whole]
    rfl

theorem roundHalfEven_one (value : Nat) : roundHalfEven value 1 = value := by
  simp [roundHalfEven, Nat.mod_one]

theorem exponentOf_natural {value : Nat} (positive : 0 < value) (bound : value < 2 ^ 53) :
    exponentOf value 1 = -((52 - value.log2 : Nat) : Int) := by
  have small : value.log2 < 53 := (Nat.log2_lt (by omega)).mpr bound
  have guess : (value.log2 : Int) - Nat.log2 1 - 52 = -((52 - value.log2 : Nat) : Int) := by
    have one : Nat.log2 1 = 0 := by decide
    omega
  have enough : ¬ value * 2 ^ (52 - value.log2) < 1 * 2 ^ 52 := by
    have least := Nat.mul_le_mul_right (2 ^ (52 - value.log2)) (Nat.log2_self_le (show value ≠ 0 by omega))
    rw [← Nat.pow_add, show value.log2 + (52 - value.log2) = 52 by omega] at least
    omega
  rw [exponentOf, guess, scaled_neg]
  exact if_neg enough

theorem nearest_natCast {value : Nat} (bound : value < 2 ^ 53) : nearest value = .finite value := by
  by_cases nothing : value = 0
  · subst nothing
    decide +kernel
  · have exponent := exponentOf_natural (Nat.pos_of_ne_zero nothing) bound
    have least : max (-1074) (-((52 - value.log2 : Nat) : Int)) = -((52 - value.log2 : Nat) : Int) := by
      omega
    have small : ¬ (overflow : Rat) ≤ value := by
      intro large
      have least : 2 ^ 53 ≤ overflow := by decide +kernel
      have below := Rat.natCast_le_natCast.mp large
      omega
    rw [nearest, Rat.num_natCast, Rat.den_natCast, Int.natAbs_natCast, exponent, least, scaled_neg,
      roundHalfEven_one, powerOfTwo_neg]
    simp only [if_neg small, if_neg (Rat.not_lt.mpr Rat.natCast_nonneg)]

theorem byteAt_eq (shift : Nat) (value : Quantity) :
    (byteAt shift value : Int) = toInteger value / (2 ^ shift : Nat) % 256 :=
  Int.toNat_of_nonneg (Int.emod_nonneg _ (by omega))

theorem byteAt_lt (shift : Nat) (value : Quantity) : byteAt shift value < 256 := by
  have whole := byteAt_eq shift value
  omega

theorem toInteger_natCast (count : Nat) : toInteger (.finite count) = count := by
  rw [toInteger, Rat.num_natCast, Rat.den_natCast]
  exact Int.tdiv_one _

theorem minus_natCast {left right : Nat} (least : right ≤ left) (bound : left < 2 ^ 53) :
    minus (.finite left) (.finite right) = .finite (left - right : Nat) := by
  have difference : (left : Rat) - right = (left - right : Nat) := by
    have whole : ((left - right : Nat) : Int) = (left : Int) - right := by omega
    rw [← Rat.intCast_natCast (left - right), whole, Rat.intCast_sub]
    rfl
  rw [minus, difference, nearest_natCast (by omega)]

/-! A text of digits is read as their value. -/

theorem signOf_digits {text : JsString} (digits : text.all isDigit = true) :
    signOf text = (false, text) := by
  cases text with
  | nil => rfl
  | cons first rest =>
      rw [List.all_cons, Bool.and_eq_true] at digits
      have isFirst := digits.1
      rw [signOf]
      split
      · rename_i same
        rw [same] at isFirst
        exact absurd isFirst (by decide)
      · split
        · rename_i same
          rw [same] at isFirst
          exact absurd isFirst (by decide)
        · rfl

theorem not_special_of_isDigit {code other : CodeUnit} (digit : isDigit code = true)
    (special : isDigit other = false) : code ≠ other := by
  rintro rfl
  rw [digit] at special
  cases special

theorem isDigit_bounds {code : CodeUnit} (digit : isDigit code = true) :
    48 ≤ code.val ∧ code.val ≤ 57 := by
  simpa only [isDigit, Bool.and_eq_true, decide_eq_true_eq] using digit

theorem isSpace_digit {code : CodeUnit} (digit : isDigit code = true) : isSpace code = false := by
  have bounds := isDigit_bounds digit
  simp only [isSpace, Bool.or_eq_false_iff, Bool.and_eq_false_iff, decide_eq_false_iff_not, beq_eq_false_iff_ne]
  omega

theorem trim_digits {text : JsString} (digits : text.all isDigit = true) : trim text = text :=
  trim_of_shown fun code member => isSpace_digit (List.all_eq_true.mp digits code member)

theorem radixDigits_digits {text : JsString} (digits : text.all isDigit = true) :
    radixDigits text = none := by
  match text with
  | [] => rfl
  | [_] => rfl
  | zero :: letter :: rest =>
      have isLetter : isDigit letter = true := List.all_eq_true.mp digits letter (by simp)
      have plain (other : CodeUnit) (special : isDigit other = false) : letter ≠ other :=
        not_special_of_isDigit isLetter special
      have noRadix : radixOf letter = none := by
        simp [radixOf, plain (unit 120) (by decide), plain (unit 88) (by decide),
          plain (unit 111) (by decide), plain (unit 79) (by decide), plain (unit 98) (by decide),
          plain (unit 66) (by decide)]
      rw [radixDigits, noRadix]
      split <;> rfl

theorem unsignedDecimal_numeral {text : JsString} (numeral : isNumeral text = true) :
    unsignedDecimal text = some (readNat text : Rat) := by
  have digits := (Bool.and_eq_true_iff.mp numeral).2
  have plain {code : CodeUnit} (member : code ∈ text) {other : CodeUnit}
      (special : isDigit other = false) : code ≠ other :=
    not_special_of_isDigit (List.all_eq_true.mp digits code member) special
  have unmarked : ∀ code ∈ text, (!isExponentMark code) = true := by
    intro code member
    simp [isExponentMark, plain member (show isDigit (unit 101) = false by decide),
      plain member (show isDigit (unit 69) = false by decide)]
  have whole : ∀ code ∈ text, decide (code ≠ unit 46) = true :=
    fun code member => decide_eq_true (plain member (by decide))
  rw [unsignedDecimal, List.takeWhile_eq_self_iff.mpr unmarked, List.dropWhile_eq_nil_iff.mpr unmarked,
    List.takeWhile_eq_self_iff.mpr whole, List.dropWhile_eq_nil_iff.mpr whole]
  simp [numeral, exponentPart, powerOfTen]

theorem toNumber_numeral {text : JsString} (numeral : isNumeral text = true)
    (bound : readNat text < 2 ^ 53) : toNumber text = .finite (readNat text) := by
  obtain ⟨some, digits⟩ := Bool.and_eq_true_iff.mp numeral
  have nonempty : text ≠ [] := of_decide_eq_true some
  have notInfinity : text ≠ js "Infinity" := by
    rintro rfl
    exact absurd digits (by decide)
  rw [toNumber, trim_digits digits, if_neg nonempty, radixDigits_digits digits]
  simp only [decimal, signOf_digits digits, if_neg notInfinity, unsignedDecimal_numeral numeral]
  exact nearest_natCast bound

theorem isDigitOf_bounds {code : CodeUnit} (digit : isDigitOf 16 code = true) :
    (48 ≤ code.val ∧ code.val ≤ 57) ∨ (97 ≤ code.val ∧ code.val ≤ 102) ∨
      (65 ≤ code.val ∧ code.val ≤ 70) := by
  by_cases isDecimal : isDigit code = true
  · exact .inl (isDigit_bounds isDecimal)
  · by_cases lower : 97 ≤ code.val ∧ code.val ≤ 102
    · exact .inr (.inl lower)
    · by_cases upper : 65 ≤ code.val ∧ code.val ≤ 70
      · exact .inr (.inr upper)
      · simp [isDigitOf, hexValue, isDecimal, lower, upper] at digit

theorem isSpace_of_isDigitOf {code : CodeUnit} (digit : isDigitOf 16 code = true) :
    isSpace code = false := by
  have bounds := isDigitOf_bounds digit
  simp only [isSpace, Bool.or_eq_false_iff, Bool.and_eq_false_iff, decide_eq_false_iff_not,
    beq_eq_false_iff_ne]
  omega

theorem hexValue_of_isDigitOf {radix : Nat} {code : CodeUnit} (digit : isDigitOf radix code = true) :
    ∃ value < radix, hexValue code = some value := by
  rw [isDigitOf] at digit
  cases isValue : hexValue code with
  | none =>
      rw [isValue] at digit
      cases digit
  | some value =>
      rw [isValue] at digit
      exact ⟨value, of_decide_eq_true digit, rfl⟩

theorem readDigits_lt {radix : Nat} {digits : JsString} (all : digits.all (isDigitOf radix) = true) :
    readDigits radix digits < radix ^ digits.length := by
  have fold (start : Nat) : digits.foldl (fun value code => value * radix + (hexValue code).getD 0) start <
      (start + 1) * radix ^ digits.length := by
    induction digits generalizing start with
    | nil => simp
    | cons code digits ih =>
        rw [List.all_cons, Bool.and_eq_true] at all
        obtain ⟨value, small, isValue⟩ := hexValue_of_isDigitOf all.1
        have later := ih all.2 (start * radix + value)
        have step : start * radix + value + 1 ≤ (start + 1) * radix := by
          rw [Nat.add_mul, Nat.one_mul]
          omega
        rw [List.foldl_cons, isValue, Option.getD_some, List.length_cons, Nat.pow_succ',
          ← Nat.mul_assoc]
        exact Nat.lt_of_lt_of_le later (Nat.mul_le_mul_right _ step)
  have whole := fold 0
  rwa [Nat.zero_add, Nat.one_mul] at whole

/-- Hexadecimal digits are read up to the first unit that is none. -/
theorem parseHex_digits {digits rest : JsString} (nonempty : digits ≠ [])
    (all : digits.all (isDigitOf 16) = true) (bound : readDigits 16 digits < 2 ^ 53)
    (ends : ∀ code ∈ rest.head?, isDigitOf 16 code = false ∧ code ≠ unit 120 ∧ code ≠ unit 88) :
    parseHex (digits ++ rest) = .finite (readDigits 16 digits) := by
  have apart {code : CodeUnit} (digit : isDigitOf 16 code = true) {other : Nat} (small : other < 65536)
      (special : ¬ (48 ≤ other ∧ other ≤ 57) ∧ ¬ (97 ≤ other ∧ other ≤ 102) ∧
        ¬ (65 ≤ other ∧ other ≤ 70)) : code ≠ unit other := by
    rintro rfl
    have bounds := isDigitOf_bounds digit
    rw [unit_val small] at bounds
    omega
  obtain ⟨first, more, rfl⟩ := List.exists_cons_of_ne_nil nonempty
  have isFirst := List.all_eq_true.mp all first List.mem_cons_self
  have shown : isSpace first = false := isSpace_of_isDigitOf isFirst
  have unsigned : signOf (first :: more ++ rest) = (false, first :: more ++ rest) := by
    simp [signOf, apart isFirst (show 45 < 65536 by omega) (by omega),
      apart isFirst (show 43 < 65536 by omega) (by omega)]
  have noRadix : stripHex (first :: more ++ rest) = first :: more ++ rest := by
    cases isSecond : more ++ rest with
    | nil => rw [List.cons_append, isSecond]; rfl
    | cons letter others =>
        have notX : letter ≠ unit 120 ∧ letter ≠ unit 88 := by
          cases more with
          | nil =>
              rw [List.nil_append] at isSecond
              exact (ends letter (by rw [isSecond]; rfl)).2
          | cons second more =>
              obtain rfl := (List.cons.inj isSecond).1
              have digit := List.all_eq_true.mp all second (by simp)
              exact ⟨apart digit (by omega) (by omega), apart digit (by omega) (by omega)⟩
        rw [List.cons_append, isSecond, stripHex, if_neg]
        rintro ⟨_, isX⟩
        exact isX.elim notX.1 notX.2
  have stops : rest.takeWhile (isDigitOf 16) = [] := by
    cases rest with
    | nil => rfl
    | cons code others => simp [(ends code rfl).1]
  have digitsOnly : (first :: more ++ rest).takeWhile (isDigitOf 16) = first :: more := by
    rw [List.takeWhile_append_of_pos (List.all_eq_true.mp all), stops, List.append_nil]
  have kept : (first :: more ++ rest).dropWhile isSpace = first :: more ++ rest := by
    simp [shown]
  rw [parseHex, kept, unsigned]
  simp only [noRadix, digitsOnly, if_neg (List.cons_ne_nil first more)]
  exact nearest_natCast bound

end Double
