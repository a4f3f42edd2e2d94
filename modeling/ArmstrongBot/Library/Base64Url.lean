import ArmstrongBot.Library.JsText

/-! The encoding `base64url` of Node buffers: three bytes in four digits, no padding. -/

namespace Base64Url

open JsText

/-- The digit of a value below 64. -/
def digit (value : Nat) : CodeUnit :=
  if value < 26 then unit (65 + value)
  else if value < 52 then unit (71 + value)
  else if value < 62 then unit (value - 4)
  else if value = 62 then unit 45
  else unit 95

/-- The digits of both alphabets. -/
def digitValue (code : CodeUnit) : Option Nat :=
  if 65 ≤ code.val ∧ code.val ≤ 90 then some (code.val - 65)
  else if 97 ≤ code.val ∧ code.val ≤ 122 then some (code.val - 71)
  else if 48 ≤ code.val ∧ code.val ≤ 57 then some (code.val + 4)
  else if code.val = 45 ∨ code.val = 43 then some 62
  else if code.val = 95 ∨ code.val = 47 then some 63
  else none

/-- `buffer.toString('base64url')` -/
def encode : List UInt8 → JsString
  | first :: second :: third :: rest =>
      digit (first.toNat / 4) :: digit (first.toNat % 4 * 16 + second.toNat / 16) ::
        digit (second.toNat % 16 * 4 + third.toNat / 64) :: digit (third.toNat % 64) :: encode rest
  | [first, second] =>
      [digit (first.toNat / 4), digit (first.toNat % 4 * 16 + second.toNat / 16),
        digit (second.toNat % 16 * 4)]
  | [first] => [digit (first.toNat / 4), digit (first.toNat % 4 * 16)]
  | [] => []

def bytesOf : List Nat → List UInt8
  | first :: second :: third :: fourth :: rest =>
      UInt8.ofNat (first * 4 + second / 16) :: UInt8.ofNat (second % 16 * 16 + third / 4) ::
        UInt8.ofNat (third % 4 * 64 + fourth) :: bytesOf rest
  | [first, second, third] =>
      [UInt8.ofNat (first * 4 + second / 16), UInt8.ofNat (second % 16 * 16 + third / 4)]
  | [first, second] => [UInt8.ofNat (first * 4 + second / 16)]
  | _ => []

/-- `Buffer.from(text, 'base64url')`: whatever is no digit is passed over. -/
def decode (text : JsString) : List UInt8 := bytesOf (text.filterMap digitValue)

theorem digit_cases {value : Nat} (bound : value < 64) :
    digitValue (digit value) = some value ∧ (digit value).val < 128 ∧ digit value ≠ unit 46 := by
  have checked : ∀ value : Fin 64, digitValue (digit value.val) = some value.val ∧
      (digit value.val).val < 128 ∧ digit value.val ≠ unit 46 := by
    decide +kernel
  exact checked ⟨value, bound⟩

theorem filterMap_digit {value : Nat} (bound : value < 64) (rest : JsString) :
    (digit value :: rest).filterMap digitValue = value :: rest.filterMap digitValue := by
  rw [List.filterMap_cons, (digit_cases bound).1]

theorem ofNat_of_eq (byte : UInt8) {value : Nat} (same : value = byte.toNat) :
    UInt8.ofNat value = byte := by
  rw [same, UInt8.ofNat_toNat]

/-- What is encoded is decoded to the same bytes. -/
theorem decode_encode (bytes : List UInt8) : decode (encode bytes) = bytes := by
  induction bytes using encode.induct with
  | case1 first second third rest ih =>
      have firstBound := first.toNat_lt
      have secondBound := second.toNat_lt
      have thirdBound := third.toNat_lt
      rw [decode] at ih ⊢
      rw [encode, filterMap_digit (by omega), filterMap_digit (by omega), filterMap_digit (by omega),
        filterMap_digit (by omega), bytesOf, ih, ofNat_of_eq first (by omega),
        ofNat_of_eq second (by omega), ofNat_of_eq third (by omega)]
  | case2 first second =>
      have firstBound := first.toNat_lt
      have secondBound := second.toNat_lt
      rw [decode, encode, filterMap_digit (by omega), filterMap_digit (by omega),
        filterMap_digit (by omega), List.filterMap_nil, bytesOf,
        ofNat_of_eq first (by omega), ofNat_of_eq second (by omega)]
  | case3 first =>
      have firstBound := first.toNat_lt
      rw [decode, encode, filterMap_digit (by omega), filterMap_digit (by omega), List.filterMap_nil,
        bytesOf, ofNat_of_eq first (by omega)]
  | case4 => rfl

theorem encode_digits (bytes : List UInt8) :
    ∀ code ∈ encode bytes, ∃ value < 64, code = digit value := by
  induction bytes using encode.induct with
  | case1 first second third rest ih =>
      have firstBound := first.toNat_lt
      have secondBound := second.toNat_lt
      have thirdBound := third.toNat_lt
      simp only [encode, List.forall_mem_cons]
      exact ⟨⟨_, by omega, rfl⟩, ⟨_, by omega, rfl⟩, ⟨_, by omega, rfl⟩, ⟨_, by omega, rfl⟩, ih⟩
  | case2 first second =>
      have firstBound := first.toNat_lt
      have secondBound := second.toNat_lt
      simp only [encode, List.forall_mem_cons]
      exact ⟨⟨_, by omega, rfl⟩, ⟨_, by omega, rfl⟩, ⟨_, by omega, rfl⟩, by simp⟩
  | case3 first =>
      have firstBound := first.toNat_lt
      simp only [encode, List.forall_mem_cons]
      exact ⟨⟨_, by omega, rfl⟩, ⟨_, by omega, rfl⟩, by simp⟩
  | case4 => simp [encode]

theorem encode_ascii (bytes : List UInt8) : ∀ code ∈ encode bytes, code.val < 128 := by
  intro code member
  obtain ⟨value, bound, rfl⟩ := encode_digits bytes code member
  exact (digit_cases bound).2.1

theorem encode_no_dot (bytes : List UInt8) : unit 46 ∉ encode bytes := by
  intro member
  obtain ⟨value, bound, same⟩ := encode_digits bytes _ member
  exact (digit_cases bound).2.2 same.symm

end Base64Url
