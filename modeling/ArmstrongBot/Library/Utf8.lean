import ArmstrongBot.Library.JsText

/-! UTF-8 as a string is written into a buffer and read out of one: what is not well formed comes
out as the replacement character U+FFFD. -/

namespace Utf8

open JsText

def replacement : Nat := 0xFFFD

def isHighSurrogate (code : CodeUnit) : Bool := 0xD800 ≤ code.val && code.val ≤ 0xDBFF

def isLowSurrogate (code : CodeUnit) : Bool := 0xDC00 ≤ code.val && code.val ≤ 0xDFFF

def lonePoint (code : CodeUnit) : Nat :=
  if isHighSurrogate code || isLowSurrogate code then replacement else code.val

def codePoints : JsString → List Nat
  | [] => []
  | [single] => [lonePoint single]
  | high :: low :: rest =>
      if isHighSurrogate high && isLowSurrogate low then
        (0x10000 + (high.val - 0xD800) * 0x400 + (low.val - 0xDC00)) :: codePoints rest
      else lonePoint high :: codePoints (low :: rest)

def encodePoint (point : Nat) : List UInt8 :=
  if point < 0x80 then [UInt8.ofNat point]
  else if point < 0x800 then
    [UInt8.ofNat (0xC0 + point / 0x40), UInt8.ofNat (0x80 + point % 0x40)]
  else if point < 0x10000 then
    [UInt8.ofNat (0xE0 + point / 0x1000), UInt8.ofNat (0x80 + point / 0x40 % 0x40),
      UInt8.ofNat (0x80 + point % 0x40)]
  else
    [UInt8.ofNat (0xF0 + point / 0x40000), UInt8.ofNat (0x80 + point / 0x1000 % 0x40),
      UInt8.ofNat (0x80 + point / 0x40 % 0x40), UInt8.ofNat (0x80 + point % 0x40)]

/-- `Buffer.from(text, 'utf8')` -/
def encode (text : JsString) : List UInt8 := (codePoints text).flatMap encodePoint

/-! The decoder. -/

/-- A sequence that is not complete: the bytes it lacks, the bounds of the next one, and the value
read so far. -/
structure Sequence where
  needed : Nat
  lower : Nat
  upper : Nat
  value : Nat

/-- The points that a byte settles, and the sequence it leaves open. -/
abbrev Reading := List Nat × Option Sequence

def readLead (byte : Nat) : Reading :=
  if byte < 0x80 then ([byte], none)
  else if 0xC2 ≤ byte ∧ byte ≤ 0xDF then
    ([], some { needed := 1, lower := 0x80, upper := 0xBF, value := byte - 0xC0 })
  else if 0xE0 ≤ byte ∧ byte ≤ 0xEF then
    -- no overlong sequences and no surrogates
    ([], some { needed := 2, lower := if byte = 0xE0 then 0xA0 else 0x80
                upper := if byte = 0xED then 0x9F else 0xBF, value := byte - 0xE0 })
  else if 0xF0 ≤ byte ∧ byte ≤ 0xF4 then
    ([], some { needed := 3, lower := if byte = 0xF0 then 0x90 else 0x80
                upper := if byte = 0xF4 then 0x8F else 0xBF, value := byte - 0xF0 })
  else ([replacement], none)

/-- A byte that does not continue a sequence ends it, and is read once more as a lead. -/
def readByte (pending : Option Sequence) (byte : Nat) : Reading :=
  match pending with
  | none => readLead byte
  | some sequence =>
      if sequence.lower ≤ byte ∧ byte ≤ sequence.upper then
        let value := sequence.value * 0x40 + (byte - 0x80)
        if sequence.needed = 1 then ([value], none)
        else ([], some { needed := sequence.needed - 1, lower := 0x80, upper := 0xBF, value })
      else (replacement :: (readLead byte).1, (readLead byte).2)

def decodePoints : Option Sequence → List UInt8 → List Nat
  | none, [] => []
  | some _, [] => [replacement]
  | pending, byte :: rest =>
      (readByte pending byte.toNat).1 ++ decodePoints (readByte pending byte.toNat).2 rest

def unitsOf (point : Nat) : JsString :=
  if point < 0x10000 then [unit point]
  else [unit (0xD800 + (point - 0x10000) / 0x400), unit (0xDC00 + (point - 0x10000) % 0x400)]

/-- `buffer.toString('utf8')` -/
def decode (bytes : List UInt8) : JsString := (decodePoints none bytes).flatMap unitsOf

example : decode [0x24, 0xC3, 0xA9, 0xF0, 0x9F, 0x98, 0x80] = js "$é😀" := by decide

example : decode [0xE2, 0x82, 0x41, 0xFF] = js "\uFFFDA\uFFFD" := by decide

example : encode (js "$é😀") = [0x24, 0xC3, 0xA9, 0xF0, 0x9F, 0x98, 0x80] := by decide

/-! ASCII texts, which stand for their own bytes. -/

def IsAscii (text : JsString) : Prop := ∀ code ∈ text, code.val < 0x80

theorem lonePoint_ascii {code : CodeUnit} (ascii : code.val < 0x80) : lonePoint code = code.val := by
  simp [lonePoint, isHighSurrogate, isLowSurrogate]
  omega

theorem lonePoint_lower {code : CodeUnit} (beyond : 0x80 ≤ code.val) : 0x80 ≤ lonePoint code := by
  unfold lonePoint
  split
  · decide
  · exact beyond

/-- The first byte tells whether a point is below U+0080. -/
theorem encodePoint_head {point : Nat} (beyond : 0x80 ≤ point) (bound : point < 0x110000) :
    ∃ byte rest, encodePoint point = byte :: rest ∧ 0x80 ≤ byte.toNat := by
  have large (value : Nat) (lower : 0x80 ≤ value) (upper : value < 0x100) :
      0x80 ≤ (UInt8.ofNat value).toNat := by
    rw [UInt8.toNat_ofNat', Nat.mod_eq_of_lt upper]
    exact lower
  unfold encodePoint
  rw [if_neg (by omega)]
  split
  · exact ⟨_, _, rfl, large _ (by omega) (by omega)⟩
  · split
    · exact ⟨_, _, rfl, large _ (by omega) (by omega)⟩
    · exact ⟨_, _, rfl, large _ (by omega) (by omega)⟩

theorem encode_cons_ascii {code : CodeUnit} (ascii : code.val < 0x80) (rest : JsString) :
    encode (code :: rest) = UInt8.ofNat code.val :: encode rest := by
  have point : codePoints (code :: rest) = code.val :: codePoints rest := by
    cases rest with
    | nil => simp [codePoints, lonePoint_ascii ascii]
    | cons low rest =>
        have notHigh : isHighSurrogate code = false := by
          simp [isHighSurrogate]
          omega
        simp [codePoints, notHigh, lonePoint_ascii ascii]
  rw [encode, point, List.flatMap_cons, encodePoint, if_pos ascii]
  rfl

theorem codePoints_cons_beyond {code : CodeUnit} (beyond : 0x80 ≤ code.val) (rest : JsString) :
    ∃ point points, codePoints (code :: rest) = point :: points ∧ 0x80 ≤ point ∧
      point < 0x110000 := by
  have lone : 0x80 ≤ lonePoint code ∧ lonePoint code < 0x110000 := by
    refine ⟨lonePoint_lower beyond, ?_⟩
    unfold lonePoint
    split
    · decide
    · omega
  cases rest with
  | nil => exact ⟨_, _, rfl, lone⟩
  | cons low rest =>
      rw [codePoints]
      split
      · rename_i pair
        simp only [isHighSurrogate, isLowSurrogate, Bool.and_eq_true, decide_eq_true_eq] at pair
        exact ⟨_, _, rfl, by omega, by omega⟩
      · exact ⟨_, _, rfl, lone⟩

/-- No other text has the bytes of an ASCII text. -/
theorem encode_eq_ascii {text ascii : JsString} (isAscii : IsAscii ascii) :
    encode text = encode ascii ↔ text = ascii := by
  refine ⟨fun same => ?_, fun same => by rw [same]⟩
  induction ascii generalizing text with
  | nil =>
      cases text with
      | nil => rfl
      | cons code rest =>
          by_cases small : code.val < 0x80
          · rw [encode_cons_ascii small] at same
            cases same
          · obtain ⟨point, points, isPoints, lower, upper⟩ :=
              codePoints_cons_beyond (Nat.not_lt.mp small) rest
            obtain ⟨byte, bytes, isBytes, _⟩ := encodePoint_head lower upper
            rw [encode, isPoints, List.flatMap_cons, isBytes] at same
            cases same
  | cons letter letters ih =>
      have letterAscii := isAscii letter List.mem_cons_self
      rw [encode_cons_ascii letterAscii] at same
      cases text with
      | nil => cases same
      | cons code rest =>
          by_cases small : code.val < 0x80
          · rw [encode_cons_ascii small] at same
            obtain ⟨sameByte, sameRest⟩ := List.cons.inj same
            have sameValue := congrArg UInt8.toNat sameByte
            rw [UInt8.toNat_ofNat', UInt8.toNat_ofNat', Nat.mod_eq_of_lt (by omega),
              Nat.mod_eq_of_lt (by omega)] at sameValue
            rw [Fin.ext sameValue, ih (fun other member => isAscii other (List.mem_cons_of_mem _ member))
              sameRest]
          · obtain ⟨point, points, isPoints, lower, upper⟩ :=
              codePoints_cons_beyond (Nat.not_lt.mp small) rest
            obtain ⟨byte, bytes, isBytes, large⟩ := encodePoint_head lower upper
            rw [encode, isPoints, List.flatMap_cons, isBytes] at same
            obtain rfl := (List.cons.inj same).1
            rw [UInt8.toNat_ofNat', Nat.mod_eq_of_lt (by omega)] at large
            omega

/-! Texts without unpaired surrogates, which come back from their bytes. -/

inductive Paired : JsString → Prop
  | nil : Paired []
  | one {code : CodeUnit} {rest : JsString} (notHigh : isHighSurrogate code = false)
      (notLow : isLowSurrogate code = false) (paired : Paired rest) : Paired (code :: rest)
  | two {high low : CodeUnit} {rest : JsString} (isHigh : isHighSurrogate high = true)
      (isLow : isLowSurrogate low = true) (paired : Paired rest) : Paired (high :: low :: rest)

theorem Paired.append {left right : JsString} (leftPaired : Paired left) (rightPaired : Paired right) :
    Paired (left ++ right) := by
  induction leftPaired with
  | nil => exact rightPaired
  | one notHigh notLow _ ih => exact .one notHigh notLow ih
  | two isHigh isLow _ ih => exact .two isHigh isLow ih

theorem paired_of_ascii {text : JsString} (ascii : IsAscii text) : Paired text := by
  induction text with
  | nil => exact .nil
  | cons code rest ih =>
      have small := ascii code List.mem_cons_self
      refine .one ?_ ?_ (ih fun other member => ascii other (List.mem_cons_of_mem _ member))
      · simp only [isHighSurrogate, Bool.and_eq_false_iff, decide_eq_false_iff_not]
        omega
      · simp only [isLowSurrogate, Bool.and_eq_false_iff, decide_eq_false_iff_not]
        omega

def IsScalar (point : Nat) : Prop := point < 0x110000 ∧ ¬ (0xD800 ≤ point ∧ point ≤ 0xDFFF)

theorem codePoints_one {code : CodeUnit} {rest : JsString} (notHigh : isHighSurrogate code = false)
    (notLow : isLowSurrogate code = false) :
    codePoints (code :: rest) = code.val :: codePoints rest := by
  have lone : lonePoint code = code.val := by simp [lonePoint, notHigh, notLow]
  cases rest with
  | nil => simp [codePoints, lone]
  | cons low rest => simp [codePoints, notHigh, lone]

theorem decodePoints_cons (pending : Option Sequence) (byte : UInt8) (rest : List UInt8) :
    decodePoints pending (byte :: rest) =
      (readByte pending byte.toNat).1 ++ decodePoints (readByte pending byte.toNat).2 rest := by
  cases pending <;> rfl

theorem toNat_ofNat {value : Nat} (bound : value < 256) : (UInt8.ofNat value).toNat = value := by
  rw [UInt8.toNat_ofNat', Nat.mod_eq_of_lt bound]

/-- A byte that continues a sequence without ending it. -/
theorem readByte_continue {sequence : Sequence} {byte : Nat} (lower : sequence.lower ≤ byte)
    (upper : byte ≤ sequence.upper) (more : sequence.needed ≠ 1) :
    readByte (some sequence) byte =
      ([], some { needed := sequence.needed - 1, lower := 0x80, upper := 0xBF
                  value := sequence.value * 0x40 + (byte - 0x80) }) := by
  simp only [readByte]
  rw [if_pos ⟨lower, upper⟩, if_neg more]

theorem readByte_end {sequence : Sequence} {byte : Nat} (lower : sequence.lower ≤ byte)
    (upper : byte ≤ sequence.upper) (last : sequence.needed = 1) :
    readByte (some sequence) byte = ([sequence.value * 0x40 + (byte - 0x80)], none) := by
  simp only [readByte]
  rw [if_pos ⟨lower, upper⟩, if_pos last]

theorem decodePoints_encodePoint {point : Nat} (scalar : IsScalar point) (rest : List UInt8) :
    decodePoints none (encodePoint point ++ rest) = point :: decodePoints none rest := by
  obtain ⟨bound, notSurrogate⟩ := scalar
  unfold encodePoint
  split
  · rename_i one
    rw [List.singleton_append, decodePoints_cons, toNat_ofNat (by omega), readByte, readLead,
      if_pos one]
    rfl
  · split
    · rename_i notOne two
      rw [List.cons_append, List.singleton_append, decodePoints_cons, toNat_ofNat (by omega),
        readByte, readLead, if_neg (by omega), if_pos (by omega)]
      dsimp only
      rw [List.nil_append, decodePoints_cons, toNat_ofNat (by omega),
        readByte_end (by dsimp only; omega) (by dsimp only; omega) rfl]
      exact congrArg (fun value => value :: decodePoints none rest) (by dsimp only; omega)
    · split
      · rename_i notOne notTwo three
        rw [List.cons_append, List.cons_append, List.singleton_append, decodePoints_cons,
          toNat_ofNat (by omega), readByte, readLead, if_neg (by omega), if_neg (by omega),
          if_pos (by omega)]
        dsimp only
        rw [List.nil_append, decodePoints_cons, toNat_ofNat (by omega),
          readByte_continue (by dsimp only; split <;> omega) (by dsimp only; split <;> omega)
            (by simp)]
        dsimp only
        rw [List.nil_append, decodePoints_cons, toNat_ofNat (by omega),
          readByte_end (by dsimp only; omega) (by dsimp only; omega) rfl]
        exact congrArg (fun value => value :: decodePoints none rest) (by dsimp only; omega)
      · rename_i notOne notTwo notThree
        rw [List.cons_append, List.cons_append, List.cons_append, List.singleton_append,
          decodePoints_cons, toNat_ofNat (by omega), readByte, readLead, if_neg (by omega),
          if_neg (by omega), if_neg (by omega), if_pos (by omega)]
        dsimp only
        rw [List.nil_append, decodePoints_cons, toNat_ofNat (by omega),
          readByte_continue (by dsimp only; split <;> omega) (by dsimp only; split <;> omega)
            (by simp)]
        dsimp only
        rw [List.nil_append, decodePoints_cons, toNat_ofNat (by omega),
          readByte_continue (by dsimp only; omega) (by dsimp only; omega) (by simp)]
        dsimp only
        rw [List.nil_append, decodePoints_cons, toNat_ofNat (by omega),
          readByte_end (by dsimp only; omega) (by dsimp only; omega) rfl]
        exact congrArg (fun value => value :: decodePoints none rest) (by dsimp only; omega)

theorem decode_encodePoint {point : Nat} (scalar : IsScalar point) (points : List Nat) :
    decode ((point :: points).flatMap encodePoint) =
      unitsOf point ++ decode (points.flatMap encodePoint) := by
  rw [decode, decode, List.flatMap_cons, decodePoints_encodePoint scalar, List.flatMap_cons]

/-- `Buffer.from(text, 'utf8').toString('utf8')` -/
theorem decode_encode {text : JsString} (paired : Paired text) : decode (encode text) = text := by
  induction paired with
  | nil => rfl
  | @one code rest notHigh notLow _ ih =>
      have bound := code.isLt
      have scalar : IsScalar code.val := by
        simp only [isHighSurrogate, isLowSurrogate, Bool.and_eq_false_iff,
          decide_eq_false_iff_not] at notHigh notLow
        exact ⟨by omega, by omega⟩
      rw [encode, codePoints_one notHigh notLow, decode_encodePoint scalar, ← encode, ih, unitsOf,
        if_pos (by omega)]
      simp [unit]
  | @two high low rest isHigh isLow _ ih =>
      have both := isHigh
      have lowBounds := isLow
      simp only [isHighSurrogate, isLowSurrogate, Bool.and_eq_true, decide_eq_true_eq] at both lowBounds
      have points : codePoints (high :: low :: rest) =
          (0x10000 + (high.val - 0xD800) * 0x400 + (low.val - 0xDC00)) :: codePoints rest := by
        simp [codePoints, isHigh, isLow]
      have scalar : IsScalar (0x10000 + (high.val - 0xD800) * 0x400 + (low.val - 0xDC00)) :=
        ⟨by omega, by omega⟩
      have highUnit : unit (0xD800 +
          (0x10000 + (high.val - 0xD800) * 0x400 + (low.val - 0xDC00) - 0x10000) / 0x400) = high := by
        apply Fin.ext
        rw [unit_val (by omega)]
        omega
      have lowUnit : unit (0xDC00 +
          (0x10000 + (high.val - 0xD800) * 0x400 + (low.val - 0xDC00) - 0x10000) % 0x400) = low := by
        apply Fin.ext
        rw [unit_val (by omega)]
        omega
      rw [encode, points, decode_encodePoint scalar, ← encode, ih, unitsOf, if_neg (by omega),
        highUnit, lowUnit]
      rfl

theorem isScalar_lonePoint (code : CodeUnit) : IsScalar (lonePoint code) := by
  have bound := code.isLt
  unfold lonePoint
  split
  · exact ⟨by decide, by decide⟩
  · rename_i notSurrogate
    simp only [isHighSurrogate, isLowSurrogate, Bool.or_eq_true, Bool.and_eq_true,
      decide_eq_true_eq] at notSurrogate
    exact ⟨by omega, by omega⟩

theorem isScalar_codePoints (text : JsString) : ∀ point ∈ codePoints text, IsScalar point := by
  induction text using codePoints.induct with
  | case1 => simp [codePoints]
  | case2 single => simp [codePoints, isScalar_lonePoint]
  | case3 high low rest pair ih =>
      have both := pair
      simp only [isHighSurrogate, isLowSurrogate, Bool.and_eq_true, decide_eq_true_eq] at both
      rw [codePoints, if_pos pair, List.forall_mem_cons]
      exact ⟨⟨by omega, by omega⟩, ih⟩
  | case4 high low rest apart ih =>
      rw [codePoints, if_neg apart, List.forall_mem_cons]
      exact ⟨isScalar_lonePoint high, ih⟩

/-- Any text comes back from its bytes as its code points say. -/
theorem decode_encode_eq (text : JsString) :
    decode (encode text) = (codePoints text).flatMap unitsOf := by
  have scalar := isScalar_codePoints text
  rw [encode]
  generalize codePoints text = points at scalar
  induction points with
  | nil => rfl
  | cons point points ih =>
      obtain ⟨isScalar, areScalar⟩ := List.forall_mem_cons.mp scalar
      rw [decode_encodePoint isScalar, ih areScalar, List.flatMap_cons]

theorem unitsOf_lonePoint (code : CodeUnit) : ∃ shown, unitsOf (lonePoint code) = [shown] ∧
    (shown = code → isHighSurrogate code = false ∧ isLowSurrogate code = false) := by
  have bound := code.isLt
  cases surrogate : isHighSurrogate code || isLowSurrogate code with
  | true =>
      refine ⟨unit replacement, ?_, ?_⟩
      · simp [lonePoint, surrogate, unitsOf, replacement]
      · rintro rfl
        exact absurd surrogate (by decide)
  | false =>
      refine ⟨code, ?_, fun _ => Bool.or_eq_false_iff.mp surrogate⟩
      have small : code.val < 0x10000 := by omega
      simp [lonePoint, surrogate, unitsOf, small, unit]

theorem paired_of_units (text : JsString) (same : (codePoints text).flatMap unitsOf = text) :
    Paired text := by
  induction text using codePoints.induct with
  | case1 => exact .nil
  | case2 single =>
      obtain ⟨shown, isShown, notSurrogate⟩ := unitsOf_lonePoint single
      rw [codePoints, List.flatMap_singleton, isShown] at same
      obtain ⟨notHigh, notLow⟩ := notSurrogate (List.cons.inj same).1
      exact .one notHigh notLow .nil
  | case3 high low rest pair ih =>
      obtain ⟨isHigh, isLow⟩ := (Bool.and_eq_true ..).mp pair
      refine .two isHigh isLow (ih ?_)
      rw [codePoints, if_pos pair, List.flatMap_cons] at same
      have halves : _ ++ (codePoints rest).flatMap unitsOf = [high, low] ++ rest := same
      refine (List.append_inj halves ?_).2
      have both := pair
      simp only [isHighSurrogate, isLowSurrogate, Bool.and_eq_true, decide_eq_true_eq] at both
      rw [unitsOf, if_neg (by omega)]
      simp only [List.length_cons, List.length_nil]
  | case4 high low rest apart ih =>
      obtain ⟨shown, isShown, notSurrogate⟩ := unitsOf_lonePoint high
      rw [codePoints, if_neg apart, List.flatMap_cons, isShown] at same
      obtain ⟨isHead, later⟩ := List.cons.inj same
      obtain ⟨notHigh, notLow⟩ := notSurrogate isHead
      exact .one notHigh notLow (ih later)

/-- A text comes back as it was only without unpaired surrogates. -/
theorem decode_encode_iff {text : JsString} : decode (encode text) = text ↔ Paired text := by
  refine ⟨fun same => paired_of_units text ?_, decode_encode⟩
  rwa [← decode_encode_eq]

theorem codePoints_units {points : List Nat} (scalar : ∀ point ∈ points, IsScalar point) :
    codePoints (points.flatMap unitsOf) = points := by
  induction points with
  | nil => rfl
  | cons point points ih =>
      obtain ⟨⟨below, notSurrogate⟩, others⟩ := List.forall_mem_cons.mp scalar
      rw [List.flatMap_cons, unitsOf]
      split
      · rename_i small
        have value : (unit point).val = point := unit_val small
        have notHigh : isHighSurrogate (unit point) = false := by
          simp only [isHighSurrogate, value, Bool.and_eq_false_iff, decide_eq_false_iff_not]
          omega
        have notLow : isLowSurrogate (unit point) = false := by
          simp only [isLowSurrogate, value, Bool.and_eq_false_iff, decide_eq_false_iff_not]
          omega
        rw [List.singleton_append, codePoints_one notHigh notLow, value, ih others]
      · have high : (unit (0xD800 + (point - 0x10000) / 0x400)).val =
            0xD800 + (point - 0x10000) / 0x400 := unit_val (by omega)
        have low : (unit (0xDC00 + (point - 0x10000) % 0x400)).val =
            0xDC00 + (point - 0x10000) % 0x400 := unit_val (by omega)
        have isPair : (isHighSurrogate (unit (0xD800 + (point - 0x10000) / 0x400)) &&
            isLowSurrogate (unit (0xDC00 + (point - 0x10000) % 0x400))) = true := by
          simp only [isHighSurrogate, isLowSurrogate, high, low, Bool.and_eq_true, decide_eq_true_eq]
          omega
        rw [List.cons_append, List.singleton_append, codePoints, if_pos isPair, high, low, ih others]
        exact congrArg (fun value => value :: points) (by omega)

/-- What a text loses on its way through bytes, its bytes have lost already. -/
theorem encode_decode_encode (text : JsString) : encode (decode (encode text)) = encode text := by
  rw [decode_encode_eq, encode, codePoints_units (isScalar_codePoints text), encode]

theorem encode_append_ascii {front : JsString} (ascii : IsAscii front) (rest : JsString) :
    encode (front ++ rest) = encode front ++ encode rest := by
  induction front with
  | nil => rfl
  | cons code front ih =>
      have small := ascii code List.mem_cons_self
      rw [List.cons_append, encode_cons_ascii small, encode_cons_ascii small,
        ih fun other member => ascii other (List.mem_cons_of_mem _ member), List.cons_append]

end Utf8
