import ArmstrongBot.Library.Base64Url
import ArmstrongBot.Library.JsMethods

/-! The encoding `base64` of Node buffers: three bytes in four digits, the last four filled up with
`=`. Node reads it as it reads `base64url`. -/

namespace Base64

open JsText

def digit (value : Nat) : CodeUnit :=
  if value < 62 then Base64Url.digit value else if value = 62 then unit 43 else unit 47

def padding : CodeUnit := unit 61

/-- `buffer.toString('base64')` -/
def encode : List UInt8 → JsString
  | first :: second :: third :: rest =>
      digit (first.toNat / 4) :: digit (first.toNat % 4 * 16 + second.toNat / 16) ::
        digit (second.toNat % 16 * 4 + third.toNat / 64) :: digit (third.toNat % 64) :: encode rest
  | [first, second] =>
      [digit (first.toNat / 4), digit (first.toNat % 4 * 16 + second.toNat / 16),
        digit (second.toNat % 16 * 4), padding]
  | [first] => [digit (first.toNat / 4), digit (first.toNat % 4 * 16), padding, padding]
  | [] => []

/-- `Buffer.from(text, 'base64')` -/
def decode (text : JsString) : List UInt8 := Base64Url.decode text

theorem digitValue_digit {value : Nat} (bound : value < 64) :
    Base64Url.digitValue (digit value) = some value := by
  unfold digit
  split
  · exact (Base64Url.digit_cases bound).1
  · split
    · rename_i isLast
      rw [isLast]
      decide
    · have isLast : value = 63 := by omega
      rw [isLast]
      decide

theorem filterMap_digit {value : Nat} (bound : value < 64) (rest : JsString) :
    (digit value :: rest).filterMap Base64Url.digitValue =
      value :: rest.filterMap Base64Url.digitValue := by
  rw [List.filterMap_cons, digitValue_digit bound]

theorem filterMap_padding (rest : JsString) :
    (padding :: rest).filterMap Base64Url.digitValue = rest.filterMap Base64Url.digitValue := by
  rw [List.filterMap_cons]
  rfl

/-- Both encodings have the same digits in different clothes. -/
theorem filterMap_encode (bytes : List UInt8) :
    (encode bytes).filterMap Base64Url.digitValue =
      (Base64Url.encode bytes).filterMap Base64Url.digitValue := by
  induction bytes using encode.induct with
  | case1 first second third rest ih =>
      have firstBound := first.toNat_lt
      have secondBound := second.toNat_lt
      have thirdBound := third.toNat_lt
      rw [encode, Base64Url.encode]
      repeat rw [filterMap_digit (by omega), Base64Url.filterMap_digit (by omega)]
      rw [ih]
  | case2 first second =>
      have firstBound := first.toNat_lt
      have secondBound := second.toNat_lt
      rw [encode, Base64Url.encode]
      repeat rw [filterMap_digit (by omega), Base64Url.filterMap_digit (by omega)]
      rw [filterMap_padding]
  | case3 first =>
      have firstBound := first.toNat_lt
      rw [encode, Base64Url.encode]
      repeat rw [filterMap_digit (by omega), Base64Url.filterMap_digit (by omega)]
      rw [filterMap_padding, filterMap_padding]
  | case4 => rfl

theorem decode_encode (bytes : List UInt8) : decode (encode bytes) = bytes := by
  have whole := Base64Url.decode_encode bytes
  rw [Base64Url.decode] at whole
  rw [decode, Base64Url.decode, filterMap_encode, whole]

/-- What is neither a digit nor padding does not come up. -/
theorem not_mem_encode {code : CodeUnit} (notDigit : Base64Url.digitValue code = none)
    (notPadding : code ≠ padding) (bytes : List UInt8) : code ∉ encode bytes := by
  have apart {value : Nat} (bound : value < 64) : code ≠ digit value := by
    rintro rfl
    rw [digitValue_digit bound] at notDigit
    cases notDigit
  induction bytes using encode.induct with
  | case1 first second third rest ih =>
      have firstBound := first.toNat_lt
      have secondBound := second.toNat_lt
      have thirdBound := third.toNat_lt
      simp only [encode, List.mem_cons, not_or]
      exact ⟨apart (by omega), apart (by omega), apart (by omega), apart (by omega), ih⟩
  | case2 first second =>
      have firstBound := first.toNat_lt
      have secondBound := second.toNat_lt
      simp only [encode, List.mem_cons, not_or]
      exact ⟨apart (by omega), apart (by omega), apart (by omega), notPadding, by simp⟩
  | case3 first =>
      have firstBound := first.toNat_lt
      simp only [encode, List.mem_cons, not_or]
      exact ⟨apart (by omega), apart (by omega), notPadding, notPadding, by simp⟩
  | case4 => simp [encode]

/-- Parts that are joined with such a code unit come apart again. -/
theorem split_encoded {separator : CodeUnit} (notDigit : Base64Url.digitValue separator = none)
    (notPadding : separator ≠ padding) {front : JsString} (free : separator ∉ front)
    (first second : List UInt8) :
    split separator (front ++ separator :: (encode first ++ separator :: encode second)) =
      [front, encode first, encode second] := by
  rw [split, List.splitOn_append_cons_self, List.splitOn_append_cons_self,
    List.splitOn_eq_singleton free,
    List.splitOn_eq_singleton (not_mem_encode notDigit notPadding first),
    List.splitOn_eq_singleton (not_mem_encode notDigit notPadding second)]
  rfl

end Base64
