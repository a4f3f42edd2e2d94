import ArmstrongBot.Library.JsText
import Mathlib.Data.List.DropRight

/-! Finite ECMAScript numbers as `Number.prototype.toString` sees them: zero, or a sign, the
shortest decimal digits that denote the number, and the place of the decimal point. -/

namespace JsNumber

open JsText

/-- The number `0.d₁d₂…dₖ · 10ⁿ` with its sign. -/
structure Decimal where
  negative : Bool
  digits : List (Fin 10)
  exponent : Int
  nonempty : digits ≠ []
  leading : digits.head? ≠ some 0
  trailing : digits.getLast? ≠ some 0
  deriving DecidableEq

/-- Both zeros are one number: they print alike and are equal. -/
inductive Number
  | zero
  | decimal (value : Decimal)
  deriving DecidableEq

def Number.one : Number :=
  .decimal
    { negative := false, digits := [1], exponent := 1
      nonempty := by decide
      leading := by decide
      trailing := by decide }

/-- The number of these digits, or zero where they are not significant. -/
def Number.ofDigits (digits : List Nat) (exponent : Int) : Number :=
  let digits := digits.map (Fin.ofNat 10)
  if significant : digits ≠ [] ∧ digits.head? ≠ some 0 ∧ digits.getLast? ≠ some 0 then
    .decimal
      { negative := false, digits, exponent
        nonempty := significant.1
        leading := significant.2.1
        trailing := significant.2.2 }
  else .zero

def Number.ofNat (value : Nat) : Number :=
  let digits := (natText value).map fun code => code.val - 48
  Number.ofDigits (digits.rdropWhile (· = 0)) digits.length

def digitsText (digits : List (Fin 10)) : JsString := digits.map fun digit => unit (48 + digit.val)

def exponentText (exponent : Int) : JsString :=
  (if exponent < 0 then unit 45 else unit 43) :: natText exponent.natAbs

/-- `Number::toString` of a positive number with `k` digits: plain notation while the point
lies within 21 digits on the left or 6 zeros on the right, scientific notation elsewhere. -/
def magnitudeText (digits : List (Fin 10)) (exponent : Int) : JsString :=
  let text := digitsText digits
  if digits.length ≤ exponent ∧ exponent ≤ 21 then
    text ++ List.replicate (exponent - digits.length).toNat (unit 48)
  else if 0 < exponent ∧ exponent ≤ 21 then
    text.take exponent.toNat ++ unit 46 :: text.drop exponent.toNat
  else if -6 < exponent ∧ exponent ≤ 0 then
    unit 48 :: unit 46 :: (List.replicate (-exponent).toNat (unit 48) ++ text)
  else if digits.length = 1 then
    text ++ unit 101 :: exponentText (exponent - 1)
  else
    text.take 1 ++ unit 46 :: (text.drop 1 ++ unit 101 :: exponentText (exponent - 1))

def numberText : Number → JsString
  | .zero => [unit 48]
  | .decimal value =>
      if value.negative then unit 45 :: magnitudeText value.digits value.exponent
      else magnitudeText value.digits value.exponent

/-! A reader for these texts. It only has to undo `magnitudeText`. -/

def cut (separator : CodeUnit) (text : JsString) : JsString × JsString :=
  (text.takeWhile (· ≠ separator), (text.dropWhile (· ≠ separator)).drop 1)

theorem all_different {separator : CodeUnit} {text : JsString} (absent : separator ∉ text) :
    ∀ code ∈ text, decide (code ≠ separator) = true := by
  intro code member
  simp only [decide_eq_true_eq]
  rintro rfl
  exact absent member

theorem cut_absent {separator : CodeUnit} {text : JsString} (absent : separator ∉ text) :
    cut separator text = (text, []) := by
  rw [cut, List.takeWhile_eq_self_iff.mpr (all_different absent),
    List.dropWhile_eq_nil_iff.mpr (all_different absent)]
  rfl

theorem cut_append {separator : CodeUnit} {front : JsString} (back : JsString)
    (absent : separator ∉ front) : cut separator (front ++ separator :: back) = (front, back) := by
  rw [cut, List.takeWhile_append_of_pos (all_different absent),
    List.dropWhile_append_of_pos (all_different absent)]
  simp

def readExponent : JsString → Int
  | [] => 0
  | sign :: digits => if sign = unit 45 then -(readNat digits : Int) else readNat digits

def readMagnitude (text : JsString) : JsString × Int :=
  let (mantissa, exponent) := cut (unit 101) text
  let (whole, fraction) := cut (unit 46) mantissa
  let significant := (whole ++ fraction).dropWhile (· = unit 48)
  (significant.rdropWhile (· = unit 48),
    whole.length - ((whole ++ fraction).length - significant.length) + readExponent exponent)

theorem readExponent_exponentText (exponent : Int) :
    readExponent (exponentText exponent) = exponent := by
  have signs : (unit 43 : CodeUnit) ≠ unit 45 := by decide
  by_cases negative : exponent < 0
  · simp only [exponentText, negative, if_true, readExponent, readNat_natText]
    omega
  · simp only [exponentText, negative, if_false, readExponent, signs, readNat_natText]
    omega

theorem digitUnit_injective {left right : Fin 10}
    (same : unit (48 + left.val) = unit (48 + right.val)) : left = right := by
  have values := congrArg Fin.val same
  rw [unit_val (by omega), unit_val (by omega)] at values
  omega

theorem digitsText_injective {left right : List (Fin 10)}
    (same : digitsText left = digitsText right) : left = right :=
  List.map_injective_iff.mpr (fun _ _ equal => digitUnit_injective equal) same

theorem digitsText_isDigit (digits : List (Fin 10)) :
    ∀ code ∈ digitsText digits, isDigit code = true := by
  intro code member
  obtain ⟨digit, _, rfl⟩ := List.mem_map.mp member
  simp only [isDigit, Bool.and_eq_true, decide_eq_true_eq, unit_val (show 48 + digit.val < 65536 by omega)]
  omega

theorem not_mem_of_isDigit {text : JsString} (digits : ∀ code ∈ text, isDigit code = true)
    {separator : CodeUnit} (notDigit : isDigit separator = false) : separator ∉ text := by
  intro member
  simp [digits separator member] at notDigit

theorem zeros_isDigit (count : Nat) : ∀ code ∈ List.replicate count (unit 48), isDigit code = true := by
  intro code member
  rw [List.eq_of_mem_replicate member]
  decide

theorem append_isDigit {front back : JsString} (frontDigits : ∀ code ∈ front, isDigit code = true)
    (backDigits : ∀ code ∈ back, isDigit code = true) :
    ∀ code ∈ front ++ back, isDigit code = true := by
  intro code member
  exact (List.mem_append.mp member).elim (frontDigits code) (backDigits code)

theorem point_not_digit : isDigit (unit 46) = false := by decide
theorem e_not_digit : isDigit (unit 101) = false := by decide

theorem dropZeros {text : JsString} (leading : text.head? ≠ some (unit 48)) (count : Nat) :
    (List.replicate count (unit 48) ++ text).dropWhile (· = unit 48) = text := by
  rw [List.dropWhile_append_of_pos (by simp)]
  cases text with
  | nil => rfl
  | cons first rest =>
      have different : first ≠ unit 48 := by simpa using leading
      simp [different]

theorem dropTrailingZeros {text : JsString} (trailing : text.getLast? ≠ some (unit 48))
    (count : Nat) : (text ++ List.replicate count (unit 48)).rdropWhile (· = unit 48) = text := by
  rw [List.rdropWhile, List.reverse_append, List.reverse_replicate,
    dropZeros (by simpa using trailing), List.reverse_reverse]

theorem digitsText_head {digits : List (Fin 10)} (leading : digits.head? ≠ some 0) :
    (digitsText digits).head? ≠ some (unit 48) := by
  rw [digitsText, List.head?_map]
  intro zero
  obtain ⟨digit, isHead, isZero⟩ := Option.map_eq_some_iff.mp zero
  have digitZero : digit = 0 := digitUnit_injective (by simpa using isZero)
  exact leading (digitZero ▸ isHead)

theorem digitsText_getLast {digits : List (Fin 10)} (trailing : digits.getLast? ≠ some 0) :
    (digitsText digits).getLast? ≠ some (unit 48) := by
  rw [digitsText, List.getLast?_map]
  intro zero
  obtain ⟨digit, isLast, isZero⟩ := Option.map_eq_some_iff.mp zero
  have digitZero : digit = 0 := digitUnit_injective (by simpa using isZero)
  exact trailing (digitZero ▸ isLast)

/-- What the reader finds in a mantissa made of leading zeros, significant digits and trailing
zeros, wherever the point stands. -/
theorem significant_found {digits : List (Fin 10)} (leading : digits.head? ≠ some 0)
    (trailing : digits.getLast? ≠ some 0) (before after : Nat) (text : JsString)
    (layout : text = List.replicate before (unit 48) ++
      (digitsText digits ++ List.replicate after (unit 48))) (nonempty : digits ≠ []) :
    (text.dropWhile (· = unit 48)).rdropWhile (· = unit 48) = digitsText digits ∧
      (text.length : Int) - (text.dropWhile (· = unit 48)).length = before := by
  have head : (digitsText digits ++ List.replicate after (unit 48)).head? ≠ some (unit 48) := by
    have textNonempty : digitsText digits ≠ [] := by simpa [digitsText] using nonempty
    rw [List.head?_append_of_ne_nil _ textNonempty]
    exact digitsText_head leading
  rw [layout, dropZeros head, dropTrailingZeros (digitsText_getLast trailing)]
  refine ⟨rfl, ?_⟩
  simp only [List.length_append, List.length_replicate]
  omega

theorem readMagnitude_magnitudeText {digits : List (Fin 10)} (nonempty : digits ≠ [])
    (leading : digits.head? ≠ some 0) (trailing : digits.getLast? ≠ some 0) (exponent : Int) :
    readMagnitude (magnitudeText digits exponent) = (digitsText digits, exponent) := by
  have allDigits := digitsText_isDigit digits
  have positive : 0 < digits.length := List.length_pos_of_ne_nil nonempty
  have length : (digitsText digits).length = digits.length := by simp [digitsText]
  have takeDigits (count : Nat) : ∀ code ∈ (digitsText digits).take count, isDigit code = true :=
    fun code member => allDigits code (List.mem_of_mem_take member)
  have dropDigits (count : Nat) : ∀ code ∈ (digitsText digits).drop count, isDigit code = true :=
    fun code member => allDigits code (List.mem_of_mem_drop member)
  unfold magnitudeText
  simp only []
  split
  · rename_i integral
    have plain := append_isDigit allDigits (zeros_isDigit (exponent - digits.length).toNat)
    have found := significant_found leading trailing 0 (exponent - digits.length).toNat
      (digitsText digits ++ List.replicate (exponent - digits.length).toNat (unit 48))
      (by simp) nonempty
    simp only [readMagnitude, cut_absent (not_mem_of_isDigit plain e_not_digit),
      cut_absent (not_mem_of_isDigit plain point_not_digit), List.append_nil, found.1, readExponent,
      Prod.mk.injEq, true_and]
    have zeros := found.2
    simp only [List.length_append, List.length_replicate, length] at zeros ⊢
    omega
  · rename_i notIntegral
    split
    · rename_i inside
      have noE : unit 101 ∉ (digitsText digits).take exponent.toNat ++
          unit 46 :: (digitsText digits).drop exponent.toNat := by
        rw [List.mem_append, List.mem_cons]
        rintro (member | same | member)
        · exact not_mem_of_isDigit (takeDigits _) e_not_digit member
        · exact absurd same (by decide)
        · exact not_mem_of_isDigit (dropDigits _) e_not_digit member
      have found := significant_found leading trailing 0 0
        ((digitsText digits).take exponent.toNat ++ (digitsText digits).drop exponent.toNat)
        (by simp) nonempty
      simp only [readMagnitude, cut_absent noE,
        cut_append _ (not_mem_of_isDigit (takeDigits exponent.toNat) point_not_digit), found.1,
        found.2, readExponent, Prod.mk.injEq, true_and, List.length_take, length]
      omega
    · rename_i notInside
      split
      · rename_i small
        have fraction := append_isDigit (zeros_isDigit (-exponent).toNat) allDigits
        have noE : unit 101 ∉ unit 48 :: unit 46 ::
            (List.replicate (-exponent).toNat (unit 48) ++ digitsText digits) := by
          rw [List.mem_cons, List.mem_cons]
          rintro (same | same | member)
          · exact absurd same (by decide)
          · exact absurd same (by decide)
          · exact not_mem_of_isDigit fraction e_not_digit member
        have found := significant_found leading trailing ((-exponent).toNat + 1) 0
          ([unit 48] ++ (List.replicate (-exponent).toNat (unit 48) ++ digitsText digits))
          (by simp [List.replicate_succ]) nonempty
        have pointCut := cut_append (List.replicate (-exponent).toNat (unit 48) ++ digitsText digits)
          (show (unit 46 : CodeUnit) ∉ [unit 48] by decide)
        rw [List.singleton_append] at pointCut
        simp only [readMagnitude, cut_absent noE, pointCut, found.1, found.2, readExponent,
          Prod.mk.injEq, true_and, List.length_singleton]
        omega
      · split
        · rename_i single
          have found := significant_found leading trailing 0 0 (digitsText digits ++ [])
            (by simp) nonempty
          simp only [readMagnitude, cut_append _ (not_mem_of_isDigit allDigits e_not_digit),
            cut_absent (not_mem_of_isDigit allDigits point_not_digit), found.1, found.2,
            readExponent_exponentText, Prod.mk.injEq, true_and, length, single]
          omega
        · have mantissaNoE : unit 101 ∉ (digitsText digits).take 1 ++
              unit 46 :: (digitsText digits).drop 1 := by
            rw [List.mem_append, List.mem_cons]
            rintro (member | same | member)
            · exact not_mem_of_isDigit (takeDigits _) e_not_digit member
            · exact absurd same (by decide)
            · exact not_mem_of_isDigit (dropDigits _) e_not_digit member
          have eCut := cut_append (exponentText (exponent - 1)) mantissaNoE
          rw [List.append_assoc, List.cons_append] at eCut
          have found := significant_found leading trailing 0 0
            ((digitsText digits).take 1 ++ (digitsText digits).drop 1)
            (by rw [List.take_append_drop]; simp) nonempty
          simp only [readMagnitude, eCut,
            cut_append _ (not_mem_of_isDigit (takeDigits 1) point_not_digit), found.1, found.2,
            readExponent_exponentText, Prod.mk.injEq, true_and, List.length_take, length]
          omega

def isNumeric (code : CodeUnit) : Bool :=
  isDigit code || code == unit 46 || code == unit 101 || code == unit 43 || code == unit 45

theorem numeric_of_isDigit {text : JsString} (digits : ∀ code ∈ text, isDigit code = true) :
    ∀ code ∈ text, isNumeric code = true := by
  intro code member
  simp [isNumeric, digits code member]

theorem exponentText_isNumeric (exponent : Int) :
    ∀ code ∈ exponentText exponent, isNumeric code = true := by
  intro code member
  rcases List.mem_cons.mp member with rfl | digit
  · split <;> decide
  · exact numeric_of_isDigit (natText_isDigit _) code digit

theorem magnitudeText_isNumeric (digits : List (Fin 10)) (exponent : Int) :
    ∀ code ∈ magnitudeText digits exponent, isNumeric code = true := by
  have text := numeric_of_isDigit (digitsText_isDigit digits)
  have zeros (count : Nat) := numeric_of_isDigit (zeros_isDigit count)
  have taken (count : Nat) : ∀ code ∈ (digitsText digits).take count, isNumeric code = true :=
    fun code member => text code (List.mem_of_mem_take member)
  have dropped (count : Nat) : ∀ code ∈ (digitsText digits).drop count, isNumeric code = true :=
    fun code member => text code (List.mem_of_mem_drop member)
  have point : isNumeric (unit 46) = true := by decide
  have letter : isNumeric (unit 101) = true := by decide
  have nought : isNumeric (unit 48) = true := by decide
  intro code member
  simp only [magnitudeText] at member
  split at member
  · exact (List.mem_append.mp member).elim (text code) (zeros _ code)
  · split at member
    · rcases List.mem_append.mp member with front | back
      · exact taken _ code front
      · rcases List.mem_cons.mp back with rfl | rest
        · exact point
        · exact dropped _ code rest
    · split at member
      · rcases List.mem_cons.mp member with rfl | member
        · exact nought
        · rcases List.mem_cons.mp member with rfl | member
          · exact point
          · exact (List.mem_append.mp member).elim (zeros _ code) (text code)
      · split at member
        · rcases List.mem_append.mp member with front | back
          · exact text code front
          · rcases List.mem_cons.mp back with rfl | rest
            · exact letter
            · exact exponentText_isNumeric _ code rest
        · rcases List.mem_append.mp member with front | back
          · exact taken _ code front
          · rcases List.mem_cons.mp back with rfl | back
            · exact point
            · rcases List.mem_append.mp back with middle | back
              · exact dropped _ code middle
              · rcases List.mem_cons.mp back with rfl | rest
                · exact letter
                · exact exponentText_isNumeric _ code rest

theorem numberText_isNumeric (value : Number) : ∀ code ∈ numberText value, isNumeric code = true := by
  have minus : isNumeric (unit 45) = true := by decide
  intro code member
  cases value with
  | zero =>
      obtain rfl : code = unit 48 := by simpa [numberText] using member
      decide
  | decimal value =>
      simp only [numberText] at member
      split at member
      · rcases List.mem_cons.mp member with rfl | member
        · exact minus
        · exact magnitudeText_isNumeric _ _ code member
      · exact magnitudeText_isNumeric _ _ code member

theorem magnitudeText_injective {left right : Decimal}
    (same : magnitudeText left.digits left.exponent = magnitudeText right.digits right.exponent) :
    left.digits = right.digits ∧ left.exponent = right.exponent := by
  have read := congrArg readMagnitude same
  rw [readMagnitude_magnitudeText left.nonempty left.leading left.trailing,
    readMagnitude_magnitudeText right.nonempty right.leading right.trailing, Prod.mk.injEq] at read
  exact ⟨digitsText_injective read.1, read.2⟩

theorem magnitudeText_first {digits : List (Fin 10)} (nonempty : digits ≠ []) (exponent : Int) :
    ∃ code rest, magnitudeText digits exponent = code :: rest ∧ isDigit code = true := by
  obtain ⟨digit, others, rfl⟩ := List.exists_cons_of_ne_nil nonempty
  have first : isDigit (unit (48 + digit.val)) = true :=
    digitsText_isDigit (digit :: others) _ (by simp [digitsText])
  unfold magnitudeText
  simp only [digitsText, List.map_cons]
  split
  · exact ⟨_, _, rfl, first⟩
  · split
    · rename_i inside
      obtain ⟨count, counted⟩ : ∃ count, exponent.toNat = count + 1 := ⟨exponent.toNat - 1, by omega⟩
      rw [counted]
      exact ⟨_, _, rfl, first⟩
    · split
      · exact ⟨_, _, rfl, by decide⟩
      · split
        · exact ⟨_, _, rfl, first⟩
        · exact ⟨_, _, rfl, first⟩

theorem magnitudeText_ne_zero (value : Decimal) :
    magnitudeText value.digits value.exponent ≠ [unit 48] := by
  intro zero
  have read := readMagnitude_magnitudeText value.nonempty value.leading value.trailing value.exponent
  rw [zero] at read
  have digitsNonempty : digitsText value.digits ≠ [] := by simpa [digitsText] using value.nonempty
  exact digitsNonempty (congrArg Prod.fst read).symm

theorem magnitudeText_no_minus (value : Decimal) (rest : JsString) :
    magnitudeText value.digits value.exponent ≠ unit 45 :: rest := by
  intro minus
  obtain ⟨code, others, text, digit⟩ := magnitudeText_first value.nonempty value.exponent
  rw [text] at minus
  rw [(List.cons.inj minus).1, minus_not_digit] at digit
  exact absurd digit (by decide)

theorem numberText_injective {left right : Number} (same : numberText left = numberText right) :
    left = right := by
  have signed (value : Decimal) : magnitudeText value.digits value.exponent ≠ [unit 48] ∧
      unit 45 :: magnitudeText value.digits value.exponent ≠ [unit 48] :=
    ⟨magnitudeText_ne_zero value, by simp [show (unit 45 : CodeUnit) ≠ unit 48 by decide]⟩
  cases left with
  | zero =>
      cases right with
      | zero => rfl
      | decimal right =>
          simp only [numberText] at same
          split at same
          · exact absurd same.symm (signed right).2
          · exact absurd same.symm (signed right).1
  | decimal left =>
      cases right with
      | zero =>
          simp only [numberText] at same
          split at same
          · exact absurd same (signed left).2
          · exact absurd same (signed left).1
      | decimal right =>
          have parts (sign : left.negative = right.negative)
              (text : magnitudeText left.digits left.exponent =
                magnitudeText right.digits right.exponent) :
              Number.decimal left = Number.decimal right := by
            obtain ⟨digits, exponent⟩ := magnitudeText_injective text
            obtain ⟨leftSign, leftDigits, leftExponent⟩ := left
            obtain ⟨rightSign, rightDigits, rightExponent⟩ := right
            simp_all
          simp only [numberText] at same
          cases leftSign : left.negative <;> cases rightSign : right.negative <;>
            simp only [leftSign, rightSign, if_true, Bool.false_eq_true, if_false] at same
          · exact parts (by rw [leftSign, rightSign]) same
          · exact absurd same (magnitudeText_no_minus left _)
          · exact absurd same.symm (magnitudeText_no_minus right _)
          · exact parts (by rw [leftSign, rightSign]) (List.cons.inj same).2

theorem numberText_first (value : Number) : ∃ code rest, numberText value = code :: rest := by
  cases value with
  | zero => exact ⟨_, _, rfl⟩
  | decimal value =>
      obtain ⟨code, rest, text, _⟩ := magnitudeText_first value.nonempty value.exponent
      simp only [numberText]
      split
      · exact ⟨_, _, rfl⟩
      · exact ⟨code, rest, text⟩

/-! A reader that takes a decimal for what it says, without rounding it to a double. -/

def digitValues (text : JsString) : List (Fin 10) := text.map fun code => Fin.ofNat 10 (code.val - 48)

def readDecimal (negative : Bool) (magnitude : JsString × Int) : Option Number :=
  let digits := digitValues magnitude.1
  if significant : digits ≠ [] ∧ digits.head? ≠ some 0 ∧ digits.getLast? ≠ some 0 then
    some (.decimal
      { negative, digits, exponent := magnitude.2
        nonempty := significant.1
        leading := significant.2.1
        trailing := significant.2.2 })
  else none

def readNumber (text : JsString) : Option Number :=
  if text = [unit 48] then some .zero
  else if text.head? = some (unit 45) then readDecimal true (readMagnitude (text.drop 1))
  else readDecimal false (readMagnitude text)

theorem digitValues_digitsText (digits : List (Fin 10)) : digitValues (digitsText digits) = digits := by
  have back : ∀ digit : Fin 10, Fin.ofNat 10 ((unit (48 + digit.val)).val - 48) = digit := by decide
  rw [digitValues, digitsText, List.map_map]
  exact List.map_id'' back digits

theorem readDecimal_magnitude (value : Decimal) :
    readDecimal value.negative (readMagnitude (magnitudeText value.digits value.exponent)) =
      some (.decimal value) := by
  have digits := digitValues_digitsText value.digits
  rw [readMagnitude_magnitudeText value.nonempty value.leading value.trailing, readDecimal]
  simp only [digits]
  exact dif_pos ⟨value.nonempty, value.leading, value.trailing⟩

theorem readNumber_numberText (value : Number) : readNumber (numberText value) = some value := by
  cases value with
  | zero => rfl
  | decimal value =>
      have back := readDecimal_magnitude value
      have notZero : numberText (.decimal value) ≠ [unit 48] := by
        intro same
        have isZero : (.decimal value : Number) = .zero := numberText_injective same
        cases isZero
      rw [readNumber, if_neg notZero, numberText]
      cases negative : value.negative with
      | true =>
          rw [negative] at back
          simpa using back
      | false =>
          have noMinus : (magnitudeText value.digits value.exponent).head? ≠ some (unit 45) := by
            intro minus
            obtain ⟨rest, equal⟩ := List.head?_eq_some_iff.mp minus
            exact magnitudeText_no_minus value rest equal
          rw [negative] at back
          simpa [noMinus] using back

end JsNumber
