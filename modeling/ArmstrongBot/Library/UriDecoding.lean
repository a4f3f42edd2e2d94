import ArmstrongBot.Library.FormEncoding

/-! `decodeURIComponent`, which reads a percent sign with two digits as a byte of UTF-8 and has no
answer where such bytes are not well formed, and `encodeURIComponent`. -/

namespace UriDecoding

open JsText
open Utf8 (Sequence Reading readLead readByte unitsOf)

inductive Piece
  | plain (code : CodeUnit)
  | byte (value : Nat)

def pieces : JsString → Option (List Piece)
  | [] => some []
  | code :: rest =>
      if code = unit 37 then
        match rest with
        | first :: second :: rest =>
            match hexValue first, hexValue second with
            | some high, some low => (pieces rest).map (.byte (high * 16 + low) :: ·)
            | _, _ => none
        | _ => none
      else (pieces rest).map (.plain code :: ·)

/-- A byte that continues no sequence and starts none is refused. -/
def acceptByte (pending : Option Sequence) (byte : Nat) : Option Reading :=
  match pending with
  | none =>
      if byte < 0x80 ∨ (0xC2 ≤ byte ∧ byte ≤ 0xF4) then some (readLead byte) else none
  | some sequence =>
      if sequence.lower ≤ byte ∧ byte ≤ sequence.upper then some (readByte pending byte) else none

def assemble : Option Sequence → List Piece → Option JsString
  | none, [] => some []
  | some _, [] => none
  | none, .plain code :: rest => (assemble none rest).map (code :: ·)
  | some _, .plain _ :: _ => none
  | pending, .byte value :: rest =>
      match acceptByte pending value with
      | none => none
      | some (points, open_) => (assemble open_ rest).map (points.flatMap unitsOf ++ ·)

/-- No value stands for the `URIError`. -/
def decodeURIComponent (text : JsString) : Option JsString := (pieces text).bind (assemble none)

example : decodeURIComponent (js "a%20b%C3%A9") = some (js "a bé") := by decide +kernel

example : decodeURIComponent (js "100%") = none ∧ decodeURIComponent (js "%C3b") = none := by decide +kernel

/-- Letters, digits and the marks that stay as they are. -/
def isUnescaped (code : CodeUnit) : Bool :=
  isDigit code || isUpper code || isLower code ||
    [33, 39, 40, 41, 42, 45, 46, 95, 126].contains code.val

def escapeByte (byte : UInt8) : JsString :=
  if isUnescaped (unit byte.toNat) then [unit byte.toNat]
  else
    [unit 37, FormEncoding.hexDigit (byte.toNat / 16), FormEncoding.hexDigit (byte.toNat % 16)]

/-- A text with an unpaired surrogate has no encoding. -/
def encodeURIComponent (text : JsString) : Option JsString :=
  if Utf8.decode (Utf8.encode text) = text then some ((Utf8.encode text).flatMap escapeByte)
  else none

example : encodeURIComponent (js "a b&é") = some (js "a%20b%26%C3%A9") := by decide +kernel

/-- A text of which nothing is escaped. -/
def Plain (text : JsString) : Prop := ∀ code ∈ text, isUnescaped code = true

instance (text : JsString) : Decidable (Plain text) :=
  decidable_of_iff (text.all isUnescaped = true) List.all_eq_true

theorem isUnescaped_bounds {code : CodeUnit} (unescaped : isUnescaped code = true) :
    code.val < 0x80 ∧ code.val ≠ 37 ∧ code.val ≠ 59 ∧ isSpace code = false := by
  have values : ∀ value < 0x80, isUnescaped (unit value) = true →
      value ≠ 37 ∧ value ≠ 59 ∧ isSpace (unit value) = false := by
    decide +kernel
  have small : code.val < 0x80 := by
    simp only [isUnescaped, isDigit, isUpper, isLower, Bool.or_eq_true, Bool.and_eq_true,
      decide_eq_true_eq, List.contains_iff_mem, List.mem_cons, List.not_mem_nil, or_false]
      at unescaped
    omega
  have same : unit code.val = code := Fin.ext (unit_val code.isLt)
  have known := values code.val small
  rw [same] at known
  exact ⟨small, known unescaped⟩

theorem Plain.isAscii {text : JsString} (plain : Plain text) : Utf8.IsAscii text :=
  fun code member => (isUnescaped_bounds (plain code member)).1

theorem encodeURIComponent_plain {text : JsString} (plain : Plain text) :
    encodeURIComponent text = some text := by
  have escaped : (Utf8.encode text).flatMap escapeByte = text := by
    induction text with
    | nil => rfl
    | cons code rest ih =>
        have unescaped := plain code List.mem_cons_self
        have small := (isUnescaped_bounds unescaped).1
        have same : unit (UInt8.ofNat code.val).toNat = code := by
          rw [Utf8.toNat_ofNat (by omega)]
          exact Fin.ext (unit_val code.isLt)
        rw [Utf8.encode_cons_ascii small, List.flatMap_cons, escapeByte, same, if_pos unescaped,
          ih fun other member => plain other (List.mem_cons_of_mem _ member)]
        rfl
  rw [encodeURIComponent, if_pos (Utf8.decode_encode (Utf8.paired_of_ascii plain.isAscii)), escaped]

theorem decodeURIComponent_plain {text : JsString} (plain : Plain text) :
    decodeURIComponent text = some text := by
  have read : pieces text = some (text.map .plain) := by
    induction text with
    | nil => rfl
    | cons code rest ih =>
        have notPercent : code ≠ unit 37 := by
          rintro rfl
          exact absurd (plain _ List.mem_cons_self) (by decide)
        have later := ih fun other member => plain other (List.mem_cons_of_mem _ member)
        rw [pieces.eq_def]
        simp only [if_neg notPercent, later, Option.map_some, List.map_cons]
  have assembled : assemble none (text.map Piece.plain) = some text := by
    clear plain read
    induction text with
    | nil => rfl
    | cons code rest ih => rw [List.map_cons, assemble, ih, Option.map_some]
  rw [decodeURIComponent, read, Option.bind_some, assembled]

end UriDecoding
