import ArmstrongBot.Library.JsMethods
import ArmstrongBot.Library.Utf8

/-! `application/x-www-form-urlencoded`, as `URLSearchParams.prototype.toString` writes it. -/

namespace FormEncoding

open JsText

/-- Letters, digits, `*`, `-`, `.` and `_` stand for themselves. -/
def isPlain (byte : Nat) : Bool :=
  (48 ≤ byte && byte ≤ 57) || (65 ≤ byte && byte ≤ 90) || (97 ≤ byte && byte ≤ 122) ||
    byte = 42 || byte = 45 || byte = 46 || byte = 95

def hexDigit (value : Nat) : CodeUnit := if value < 10 then unit (48 + value) else unit (55 + value)

def encodeByte (byte : UInt8) : JsString :=
  if isPlain byte.toNat then [unit byte.toNat]
  else if byte.toNat = 32 then [unit 43]
  else [unit 37, hexDigit (byte.toNat / 16), hexDigit (byte.toNat % 16)]

def encode (text : JsString) : JsString := (Utf8.encode text).flatMap encodeByte

def piece (pair : JsString × JsString) : JsString := encode pair.1 ++ unit 61 :: encode pair.2

def serialize (pairs : List (JsString × JsString)) : JsString := [unit 38].intercalate (pairs.map piece)

example : serialize [(js "q", js "a b&c"), (js "é", [])] = js "q=a+b%26c&%C3%A9=" := by decide +kernel

/-! Every text is written in one way. -/

theorem hexDigit_injective {first second : Nat} (firstBound : first < 16) (secondBound : second < 16)
    (same : hexDigit first = hexDigit second) : first = second := by
  have values := congrArg Fin.val same
  simp only [hexDigit] at values
  split at values <;> split at values
  all_goals
    rw [unit_val (by omega), unit_val (by omega)] at values
    omega

theorem encodeByte_cases (byte : UInt8) :
    (isPlain byte.toNat = true ∧ encodeByte byte = [unit byte.toNat]) ∨
      (byte.toNat = 32 ∧ encodeByte byte = [unit 43]) ∨
      encodeByte byte = [unit 37, hexDigit (byte.toNat / 16), hexDigit (byte.toNat % 16)] := by
  rw [encodeByte]
  split
  · rename_i plain
    exact .inl ⟨plain, rfl⟩
  · split
    · rename_i space
      exact .inr (.inl ⟨space, rfl⟩)
    · exact .inr (.inr rfl)

theorem isPlain_apart {byte : UInt8} (plain : isPlain byte.toNat = true) {code : Nat}
    (bound : code < 65536) (special : isPlain code = false) : unit code ≠ unit byte.toNat := by
  intro same
  have values := congrArg Fin.val same
  have byteBound := byte.toNat_lt
  rw [unit_val bound, unit_val (by omega)] at values
  rw [values, plain] at special
  cases special

theorem hexDigit_apart {value : Nat} (bound : value < 16) {code : Nat} (codeBound : code < 65536)
    (special : isPlain code = false) : unit code ≠ hexDigit value := by
  intro same
  have values := congrArg Fin.val same
  simp only [isPlain, Bool.or_eq_false_iff, Bool.and_eq_false_iff, decide_eq_false_iff_not] at special
  rw [hexDigit, unit_val codeBound] at values
  split at values
  all_goals
    rw [unit_val (by omega)] at values
    omega

theorem byte_injective {first second : UInt8}
    (same : unit first.toNat = unit second.toNat) : first = second := by
  have values := congrArg Fin.val same
  have firstBound := first.toNat_lt
  have secondBound := second.toNat_lt
  rw [unit_val (by omega), unit_val (by omega)] at values
  exact UInt8.toNat_inj.mp values

/-- No encoded byte is the beginning of another. -/
theorem encodeByte_append {first second : UInt8} {rest other : JsString}
    (same : encodeByte first ++ rest = encodeByte second ++ other) : first = second ∧ rest = other := by
  have apart : (unit 43 : CodeUnit) ≠ unit 37 := by decide
  rcases encodeByte_cases first with ⟨plain, isFirst⟩ | ⟨space, isFirst⟩ | isFirst
  · rcases encodeByte_cases second with ⟨_, isSecond⟩ | ⟨_, isSecond⟩ | isSecond
    · rw [isFirst, isSecond] at same
      obtain ⟨head, tail⟩ := List.cons.inj same
      exact ⟨byte_injective head, tail⟩
    · rw [isFirst, isSecond] at same
      exact absurd (List.cons.inj same).1.symm (isPlain_apart plain (by omega) (by decide))
    · rw [isFirst, isSecond] at same
      exact absurd (List.cons.inj same).1.symm (isPlain_apart plain (by omega) (by decide))
  · rcases encodeByte_cases second with ⟨plain, isSecond⟩ | ⟨otherSpace, isSecond⟩ | isSecond
    · rw [isFirst, isSecond] at same
      exact absurd (List.cons.inj same).1 (isPlain_apart plain (by omega) (by decide))
    · rw [isFirst, isSecond] at same
      exact ⟨UInt8.toNat_inj.mp (space.trans otherSpace.symm), (List.cons.inj same).2⟩
    · rw [isFirst, isSecond] at same
      exact absurd (List.cons.inj same).1 apart
  · rcases encodeByte_cases second with ⟨plain, isSecond⟩ | ⟨_, isSecond⟩ | isSecond
    · rw [isFirst, isSecond] at same
      exact absurd (List.cons.inj same).1 (isPlain_apart plain (by omega) (by decide))
    · rw [isFirst, isSecond] at same
      exact absurd (List.cons.inj same).1.symm apart
    · rw [isFirst, isSecond] at same
      obtain ⟨high, digits⟩ := List.cons.inj (List.cons.inj same).2
      obtain ⟨low, tail⟩ := List.cons.inj digits
      have firstBound := first.toNat_lt
      have secondBound := second.toNat_lt
      have sameHigh := hexDigit_injective (by omega) (by omega) high
      have sameLow := hexDigit_injective (by omega) (by omega) low
      exact ⟨UInt8.toNat_inj.mp (by omega), tail⟩

theorem encodeByte_ne_nil (byte : UInt8) : encodeByte byte ≠ [] := by
  rcases encodeByte_cases byte with ⟨_, isByte⟩ | ⟨_, isByte⟩ | isByte
  all_goals
    rw [isByte]
    exact List.cons_ne_nil _ _

theorem flatMap_encodeByte_injective {first second : List UInt8}
    (same : first.flatMap encodeByte = second.flatMap encodeByte) : first = second := by
  induction first generalizing second with
  | nil =>
      cases second with
      | nil => rfl
      | cons byte rest =>
          rw [List.flatMap_cons] at same
          exact absurd (List.append_eq_nil_iff.mp same.symm).1 (encodeByte_ne_nil byte)
  | cons byte rest ih =>
      cases second with
      | nil =>
          rw [List.flatMap_cons] at same
          exact absurd (List.append_eq_nil_iff.mp same).1 (encodeByte_ne_nil byte)
      | cons other others =>
          rw [List.flatMap_cons, List.flatMap_cons] at same
          obtain ⟨rfl, later⟩ := encodeByte_append same
          rw [ih later]

theorem encode_injective {first second : JsString} (firstPaired : Utf8.Paired first)
    (secondPaired : Utf8.Paired second) (same : encode first = encode second) : first = second := by
  have bytes := flatMap_encodeByte_injective same
  rw [← Utf8.decode_encode firstPaired, bytes, Utf8.decode_encode secondPaired]

/-- Besides plain units only the plus and the percent sign are in an encoded text. -/
theorem not_mem_encode {code : Nat} (bound : code < 65536) (special : isPlain code = false)
    (notPlus : code ≠ 43) (notPercent : code ≠ 37) (text : JsString) : unit code ∉ encode text := by
  intro member
  obtain ⟨byte, _, isIn⟩ := List.mem_flatMap.mp member
  have byteBound := byte.toNat_lt
  have apart {other : Nat} (otherBound : other < 65536) (different : code ≠ other) :
      unit code ≠ unit other := by
    intro same
    have values := congrArg Fin.val same
    rw [unit_val bound, unit_val otherBound] at values
    exact different values
  rcases encodeByte_cases byte with ⟨plain, isByte⟩ | ⟨_, isByte⟩ | isByte
  · rw [isByte, List.mem_singleton] at isIn
    exact isPlain_apart plain bound special isIn
  · rw [isByte, List.mem_singleton] at isIn
    exact apart (by omega) notPlus isIn
  · rw [isByte] at isIn
    simp only [List.mem_cons, List.not_mem_nil, or_false] at isIn
    rcases isIn with same | same | same
    · exact apart (by omega) notPercent same
    · exact hexDigit_apart (by omega) bound special same
    · exact hexDigit_apart (by omega) bound special same

theorem piece_injective {first second : JsString × JsString} (same : piece first = piece second) :
    encode first.1 = encode second.1 ∧ encode first.2 = encode second.2 := by
  have free (text : JsString) : unit 61 ∉ encode text :=
    not_mem_encode (by omega) (by decide) (by omega) (by omega) text
  have parts := congrArg (List.splitOn (unit 61)) same
  rw [piece, piece, List.splitOn_append_cons_self_of_not_mem (free _), List.splitOn_eq_singleton (free _),
    List.splitOn_append_cons_self_of_not_mem (free _), List.splitOn_eq_singleton (free _)] at parts
  obtain ⟨names, values⟩ := List.cons.inj parts
  exact ⟨names, (List.cons.inj values).1⟩

theorem not_mem_piece {code : Nat} (bound : code < 65536) (special : isPlain code = false)
    (notPlus : code ≠ 43) (notPercent : code ≠ 37) (notEquals : code ≠ 61)
    (pair : JsString × JsString) : unit code ∉ piece pair := by
  intro member
  rcases List.mem_append.mp member with inName | inRest
  · exact not_mem_encode bound special notPlus notPercent _ inName
  · rcases List.mem_cons.mp inRest with same | inValue
    · have values := congrArg Fin.val same
      rw [unit_val bound, unit_val (by omega)] at values
      exact notEquals values
    · exact not_mem_encode bound special notPlus notPercent _ inValue

/-- A serialized list falls into its pieces again at the ampersands. -/
theorem pieces_injective {first second : List (JsString × JsString)}
    (same : serialize first = serialize second) : first.map piece = second.map piece := by
  have free (pairs : List (JsString × JsString)) : ∀ part ∈ pairs.map piece, unit 38 ∉ part := by
    intro part member
    obtain ⟨pair, _, rfl⟩ := List.mem_map.mp member
    exact not_mem_piece (by omega) (by decide) (by omega) (by omega) (by omega) pair
  have filled (pair : JsString × JsString) : piece pair ≠ [] := by
    simp [piece]
  have parts := congrArg (List.splitOn (unit 38)) same
  rw [serialize, serialize] at parts
  cases first with
  | nil =>
      cases second with
      | nil => rfl
      | cons pair rest =>
          rw [List.splitOn_intercalate _ (free (pair :: rest)) (List.cons_ne_nil _ _)] at parts
          rw [List.map_nil, List.intercalate_nil, List.splitOn_nil, List.map_cons] at parts
          exact absurd (List.cons.inj parts).1.symm (filled pair)
  | cons pair rest =>
      rw [List.splitOn_intercalate _ (free (pair :: rest)) (List.cons_ne_nil _ _)] at parts
      cases second with
      | nil =>
          rw [List.map_nil, List.intercalate_nil, List.splitOn_nil, List.map_cons] at parts
          exact absurd (List.cons.inj parts).1 (filled pair)
      | cons other others =>
          rwa [List.splitOn_intercalate _ (free (other :: others)) (List.cons_ne_nil _ _)] at parts

theorem serialize_injective {first second : List (JsString × JsString)}
    (firstPaired : ∀ pair ∈ first, Utf8.Paired pair.1 ∧ Utf8.Paired pair.2)
    (secondPaired : ∀ pair ∈ second, Utf8.Paired pair.1 ∧ Utf8.Paired pair.2)
    (same : serialize first = serialize second) : first = second := by
  have pieces := pieces_injective same
  clear same
  induction first generalizing second with
  | nil => exact (List.map_eq_nil_iff.mp pieces.symm).symm
  | cons pair rest ih =>
      cases second with
      | nil => cases pieces
      | cons other others =>
          rw [List.map_cons, List.map_cons] at pieces
          obtain ⟨head, tail⟩ := List.cons.inj pieces
          obtain ⟨names, values⟩ := piece_injective head
          obtain ⟨namePaired, valuePaired⟩ := firstPaired pair List.mem_cons_self
          obtain ⟨otherName, otherValue⟩ := secondPaired other List.mem_cons_self
          have samePair : pair = other :=
            Prod.ext (encode_injective namePaired otherName names)
              (encode_injective valuePaired otherValue values)
          have sameRest := ih (fun pair member => firstPaired pair (List.mem_cons_of_mem _ member))
            (fun pair member => secondPaired pair (List.mem_cons_of_mem _ member)) tail
          rw [samePair, sameRest]

theorem mem_serialize {code : CodeUnit} {pairs : List (JsString × JsString)}
    (member : code ∈ serialize pairs) : code = unit 38 ∨ ∃ pair ∈ pairs, code ∈ piece pair := by
  induction pairs with
  | nil => cases member
  | cons pair rest ih =>
      cases rest with
      | nil =>
          rw [serialize, List.map_singleton, List.intercalate_singleton] at member
          exact .inr ⟨pair, List.mem_cons_self, member⟩
      | cons other others =>
          rw [serialize, List.map_cons, List.map_cons, List.intercalate_cons_cons, List.append_assoc,
            List.mem_append, List.mem_append, List.mem_singleton] at member
          rcases member with inPair | isAmpersand | inRest
          · exact .inr ⟨pair, List.mem_cons_self, inPair⟩
          · exact .inl isAmpersand
          · rcases ih inRest with isAmpersand | ⟨found, known, inFound⟩
            · exact .inl isAmpersand
            · exact .inr ⟨found, List.mem_cons_of_mem _ known, inFound⟩

/-- A serialized list has no question mark. -/
theorem not_mem_serialize (pairs : List (JsString × JsString)) : unit 63 ∉ serialize pairs := by
  intro member
  rcases mem_serialize member with isAmpersand | ⟨pair, _, inPiece⟩
  · exact absurd isAmpersand (by decide)
  · exact not_mem_piece (by omega) (by decide) (by omega) (by omega) (by omega) pair inPiece

end FormEncoding
