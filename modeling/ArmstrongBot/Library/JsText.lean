import Mathlib.Data.List.Basic
import Mathlib.Data.Fin.Basic
import Mathlib.Order.Fin.Basic
import Mathlib.Data.List.Lex
import Mathlib.Algebra.Group.Nat.Defs

/-! ECMAScript strings as lists of UTF-16 code units, and the decimal texts of integers. -/

namespace JsText

abbrev CodeUnit := Fin 65536

/-- A string is any list of code units, unpaired surrogates included. -/
abbrev JsString := List CodeUnit

instance : LawfulBEq JsString := inferInstanceAs (LawfulBEq (List CodeUnit))

def unit (code : Nat) : CodeUnit := Fin.ofNat 65536 code

/-- The code units of one Unicode character: one below U+10000, a surrogate pair above. -/
def encodeChar (character : Char) : JsString :=
  if character.toNat < 0x10000 then [unit character.toNat]
  else [unit (0xD800 + (character.toNat - 0x10000) / 0x400),
    unit (0xDC00 + (character.toNat - 0x10000) % 0x400)]

def js (text : String) : JsString := text.toList.flatMap encodeChar

/-- `BigInt.prototype.toString` and `Number.prototype.toString` of a natural number. -/
def natText (value : Nat) : JsString := (Nat.toDigits 10 value).map fun digit => unit digit.toNat

def intText (value : Int) : JsString :=
  if value < 0 then unit 45 :: natText value.natAbs else natText value.natAbs

def isDigit (code : CodeUnit) : Bool := 48 ≤ code.val && code.val ≤ 57

def readNat (text : JsString) : Nat := text.foldl (fun value code => value * 10 + (code.val - 48)) 0

theorem unit_val {code : Nat} (bound : code < 65536) : (unit code).val = code :=
  Nat.mod_eq_of_lt bound

theorem digit_toNat {digit : Char} (isDigitChar : digit.isDigit = true) :
    48 ≤ digit.toNat ∧ digit.toNat ≤ 57 := by
  simp only [Char.isDigit, Bool.and_eq_true, decide_eq_true_eq] at isDigitChar
  have lower := UInt32.le_iff_toNat_le.mp isDigitChar.1
  have upper := UInt32.le_iff_toNat_le.mp isDigitChar.2
  exact ⟨lower, upper⟩

theorem natText_isDigit (value : Nat) : ∀ code ∈ natText value, isDigit code = true := by
  intro code member
  obtain ⟨digit, digitMember, rfl⟩ := List.mem_map.mp member
  have bounds := digit_toNat (Nat.isDigit_of_mem_toDigits (by omega) (by omega) digitMember)
  simp only [isDigit, Bool.and_eq_true, decide_eq_true_eq, unit_val (show digit.toNat < 65536 by omega)]
  exact bounds

theorem readNat_natText (value : Nat) : readNat (natText value) = value := by
  have digits : ∀ chars : List Char, (∀ digit ∈ chars, digit.isDigit = true) → ∀ start,
      (chars.map fun digit => unit digit.toNat).foldl
        (fun value code => value * 10 + (code.val - 48)) start = Nat.ofDigitChars 10 chars start := by
    intro chars
    induction chars with
    | nil => intro _ start; rfl
    | cons first rest ih =>
        intro all start
        have bounds := digit_toNat (all first (by simp))
        simp only [List.map_cons, List.foldl_cons]
        rw [ih (fun digit member => all digit (by simp [member])),
          unit_val (show first.toNat < 65536 by omega), Nat.ofDigitChars_cons, Nat.mul_comm]
        rfl
  rw [readNat, natText, digits _ (fun digit member =>
    Nat.isDigit_of_mem_toDigits (by omega) (by omega) member), Nat.ofDigitChars_ten_toDigits]

theorem natText_injective {left right : Nat} (same : natText left = natText right) :
    left = right := by
  rw [← readNat_natText left, ← readNat_natText right, same]

theorem natText_length_le {value width : Nat} (positive : 0 < width) (bound : value < 10 ^ width) :
    (natText value).length ≤ width := by
  rw [natText, List.length_map]
  exact (Nat.length_toDigits_le_iff (by omega) positive).mpr bound

theorem minus_not_digit : isDigit (unit 45) = false := by decide

theorem intText_injective {left right : Int} (same : intText left = intText right) :
    left = right := by
  have noMinus (value : Nat) (rest : JsString) : natText value ≠ unit 45 :: rest := by
    intro equal
    have digit := natText_isDigit value (unit 45) (by simp [equal])
    simp [minus_not_digit] at digit
  unfold intText at same
  split at same <;> split at same
  · have magnitude := natText_injective (List.cons.inj same).2
    omega
  · exact absurd same.symm (noMinus _ _)
  · exact absurd same (noMinus _ _)
  · have magnitude := natText_injective same
    omega

/-- `String.prototype.padStart` with zeros. -/
def padStart (width : Nat) (text : JsString) : JsString :=
  List.replicate (width - text.length) (unit 48) ++ text

theorem padStart_length {width : Nat} {text : JsString} (short : text.length ≤ width) :
    (padStart width text).length = width := by
  simp only [padStart, List.length_append, List.length_replicate]
  omega

theorem readNat_padStart (width value : Nat) : readNat (padStart width (natText value)) = value := by
  have zeros : ∀ count, (List.replicate count (unit 48)).foldl
      (fun value code => value * 10 + (code.val - 48)) 0 = 0 := by
    intro count
    induction count with
    | zero => rfl
    | succ count ih => simpa [List.replicate_succ, unit_val] using ih
  rw [readNat, padStart, List.foldl_append, zeros]
  exact readNat_natText value

theorem padStart_injective {width left right : Nat}
    (same : padStart width (natText left) = padStart width (natText right)) : left = right := by
  rw [← readNat_padStart width left, ← readNat_padStart width right, same]

theorem padStart_isDigit (width value : Nat) :
    ∀ code ∈ padStart width (natText value), isDigit code = true := by
  intro code member
  rcases List.mem_append.mp member with zero | digit
  · rw [List.eq_of_mem_replicate zero]
    decide
  · exact natText_isDigit value code digit

end JsText
