import ArmstrongBot.Library.JsNumber

/-! JSON values as an ECMAScript program holds them, and `JSON.stringify`. The text of a value
determines the value: the serialisation is injective, behind any remainder that may follow it. -/

namespace JsJson

open JsText JsNumber

inductive Json
  | null
  | bool (value : Bool)
  | num (value : Number)
  | str (value : JsString)
  | arr (items : List Json)
  | obj (fields : List (JsString × Json))

/-! Strings. -/

def hexDigit (value : Nat) : CodeUnit := if value < 10 then unit (48 + value) else unit (87 + value)

def unicodeEscape (code : CodeUnit) : JsString :=
  [unit 92, unit 117, hexDigit (code.val / 4096), hexDigit (code.val / 256 % 16),
    hexDigit (code.val / 16 % 16), hexDigit (code.val % 16)]

def isLeadSurrogate (code : CodeUnit) : Bool := 0xD800 ≤ code.val && code.val ≤ 0xDBFF
def isTrailSurrogate (code : CodeUnit) : Bool := 0xDC00 ≤ code.val && code.val ≤ 0xDFFF
def isSurrogate (code : CodeUnit) : Bool := isLeadSurrogate code || isTrailSurrogate code

/-- The code units that have a short escape, with the letter behind its backslash. -/
def shortEscapes : List (CodeUnit × CodeUnit) :=
  [(unit 8, unit 98), (unit 9, unit 116), (unit 10, unit 110), (unit 12, unit 102),
    (unit 13, unit 114), (unit 34, unit 34), (unit 92, unit 92)]

def escapeUnit (code : CodeUnit) : JsString :=
  match shortEscapes.lookup code with
  | some letter => [unit 92, letter]
  | none => if code.val < 32 || isSurrogate code then unicodeEscape code else [code]

/-- A surrogate pair is copied; a surrogate without its partner is escaped. -/
def escape : JsString → JsString
  | [] => []
  | [code] => escapeUnit code
  | code :: next :: rest =>
      if isLeadSurrogate code && isTrailSurrogate next then code :: next :: escape rest
      else escapeUnit code ++ escape (next :: rest)

def quote (text : JsString) : JsString := unit 34 :: (escape text ++ [unit 34])

/-! Values. -/

mutual

def stringify : Json → JsString
  | .null => js "null"
  | .bool true => js "true"
  | .bool false => js "false"
  | .num value => numberText value
  | .str value => quote value
  | .arr [] => js "[]"
  | .arr (item :: items) => unit 91 :: (stringify item ++ itemsText items)
  | .obj [] => js "{}"
  | .obj ((key, value) :: fields) =>
      unit 123 :: (quote key ++ unit 58 :: (stringify value ++ fieldsText fields))

def itemsText : List Json → JsString
  | [] => [unit 93]
  | item :: items => unit 44 :: (stringify item ++ itemsText items)

def fieldsText : List (JsString × Json) → JsString
  | [] => [unit 125]
  | (key, value) :: fields =>
      unit 44 :: (quote key ++ unit 58 :: (stringify value ++ fieldsText fields))

end

/-! Injectivity of the escapes, one code unit at a time. -/

/-- The texts a code unit can become: its escape, or itself within a surrogate pair. -/
def Chunk (code : CodeUnit) (text : JsString) : Prop :=
  text = escapeUnit code ∨ text = [code] ∧ isSurrogate code = true

inductive Escaped : JsString → JsString → Prop
  | nil : Escaped [] []
  | cons {code : CodeUnit} {chunk text escaped : JsString} :
      Chunk code chunk → Escaped text escaped → Escaped (code :: text) (chunk ++ escaped)

theorem escaped_escape (text : JsString) : Escaped text (escape text) := by
  induction text using escape.induct with
  | case1 => exact .nil
  | case2 code => simpa [escape] using Escaped.cons (Or.inl rfl) .nil
  | case3 code next rest pair ih =>
      have surrogates := pair
      simp only [Bool.and_eq_true] at surrogates
      rw [escape, if_pos pair]
      have codeChunk : Chunk code [code] := Or.inr ⟨rfl, by simp [isSurrogate, surrogates.1]⟩
      have nextChunk : Chunk next [next] := Or.inr ⟨rfl, by simp [isSurrogate, surrogates.2]⟩
      exact .cons codeChunk (.cons nextChunk ih)
  | case4 code next rest single ih =>
      rw [escape, if_neg single]
      exact .cons (Or.inl rfl) ih

theorem hexDigit_injective {left right : Nat} (leftBound : left < 16) (rightBound : right < 16)
    (same : hexDigit left = hexDigit right) : left = right := by
  have value (digit : Nat) (bound : digit < 16) :
      (hexDigit digit).val = if digit < 10 then 48 + digit else 87 + digit := by
    unfold hexDigit
    split <;> exact unit_val (by omega)
  have values := congrArg Fin.val same
  rw [value left leftBound, value right rightBound] at values
  split at values <;> split at values <;> omega

theorem unicodeEscape_injective {left right : CodeUnit} {leftRest rightRest : JsString}
    (same : unicodeEscape left ++ leftRest = unicodeEscape right ++ rightRest) :
    left = right ∧ leftRest = rightRest := by
  simp only [unicodeEscape, List.cons_append, List.nil_append, List.cons.injEq, true_and] at same
  obtain ⟨first, second, third, fourth, rest⟩ := same
  have leftBound := left.isLt
  have rightBound := right.isLt
  have one := hexDigit_injective (by omega) (by omega) first
  have two := hexDigit_injective (by omega) (by omega) second
  have three := hexDigit_injective (by omega) (by omega) third
  have four := hexDigit_injective (by omega) (by omega) fourth
  have high (value : Nat) : value / 4096 = value / 256 / 16 := by rw [Nat.div_div_eq_div_mul]
  have middle (value : Nat) : value / 256 = value / 16 / 16 := by rw [Nat.div_div_eq_div_mul]
  rw [high left, high right, middle left, middle right] at one
  rw [middle left, middle right] at two
  exact ⟨Fin.ext (by omega), rest⟩

theorem mem_of_lookup {α β : Type*} [BEq α] [LawfulBEq α] {entries : List (α × β)} {key : α}
    {value : β} (found : entries.lookup key = some value) : (key, value) ∈ entries := by
  obtain ⟨front, back, rfl, _⟩ := List.lookup_eq_some_iff.mp found
  simp

theorem shortEscapes_facts : ∀ first ∈ shortEscapes,
    first.2 ≠ unit 117 ∧ ∀ second ∈ shortEscapes, first.2 = second.2 → first.1 = second.1 := by
  -- The check runs over the table; over all code units it would not end.
  have checked : (shortEscapes.all fun first => decide (first.2 ≠ unit 117) &&
      shortEscapes.all fun second => decide (first.2 = second.2 → first.1 = second.1)) = true := by
    decide
  simp only [List.all_eq_true, Bool.and_eq_true, decide_eq_true_eq] at checked
  exact checked

theorem plain_ne_backslash {code : CodeUnit} (absent : shortEscapes.lookup code = none) :
    code ≠ unit 92 ∧ code ≠ unit 34 := by
  constructor
  · rintro rfl
    exact absurd absent (by decide)
  · rintro rfl
    exact absurd absent (by decide)

theorem surrogate_ne_ascii {code : CodeUnit} (surrogate : isSurrogate code = true) {ascii : Nat}
    (bound : ascii < 128) : code ≠ unit ascii := by
  rintro rfl
  have value := unit_val (show ascii < 65536 by omega)
  simp only [isSurrogate, isLeadSurrogate, isTrailSurrogate, Bool.or_eq_true, Bool.and_eq_true,
    decide_eq_true_eq, value] at surrogate
  omega

/-- A chunk is the code unit itself, a backslash and a letter, or a backslash, `u` and four
hexadecimal digits. -/
theorem Chunk.cases {code : CodeUnit} {text : JsString} (chunk : Chunk code text) :
    (text = [code] ∧ code ≠ unit 92 ∧ code ≠ unit 34) ∨
      (∃ letter, (code, letter) ∈ shortEscapes ∧ text = [unit 92, letter]) ∨
      text = unicodeEscape code := by
  rcases chunk with escaped | ⟨same, surrogate⟩
  · subst text
    unfold escapeUnit
    cases found : shortEscapes.lookup code with
    | some letter => exact Or.inr (Or.inl ⟨letter, mem_of_lookup found, rfl⟩)
    | none =>
        simp only []
        split
        · exact Or.inr (Or.inr rfl)
        · exact Or.inl ⟨rfl, plain_ne_backslash found⟩
  · exact Or.inl ⟨same, surrogate_ne_ascii surrogate (by omega), surrogate_ne_ascii surrogate (by omega)⟩

theorem Chunk.injective {left right : CodeUnit} {leftText rightText leftRest rightRest : JsString}
    (leftChunk : Chunk left leftText) (rightChunk : Chunk right rightText)
    (same : leftText ++ leftRest = rightText ++ rightRest) : left = right ∧ leftRest = rightRest := by
  rcases leftChunk.cases with ⟨rfl, leftPlain, _⟩ | ⟨leftLetter, leftShort, rfl⟩ | rfl <;>
    rcases rightChunk.cases with ⟨rfl, rightPlain, _⟩ | ⟨rightLetter, rightShort, rfl⟩ | rfl
  · simpa using same
  · exact absurd (List.cons.inj same).1 leftPlain
  · exact absurd (List.cons.inj same).1 leftPlain
  · exact absurd (List.cons.inj same).1.symm rightPlain
  · simp only [List.cons_append, List.nil_append, List.cons.injEq, true_and] at same
    exact ⟨(shortEscapes_facts _ leftShort).2 _ rightShort same.1, same.2⟩
  · simp only [unicodeEscape, List.cons_append, List.nil_append, List.cons.injEq, true_and] at same
    exact absurd same.1 (shortEscapes_facts _ leftShort).1
  · exact absurd (List.cons.inj same).1.symm rightPlain
  · simp only [unicodeEscape, List.cons_append, List.nil_append, List.cons.injEq, true_and] at same
    exact absurd same.1.symm (shortEscapes_facts _ rightShort).1
  · exact unicodeEscape_injective same

theorem Chunk.not_quote {code : CodeUnit} {text rest closing : JsString} (chunk : Chunk code text) :
    text ++ rest ≠ unit 34 :: closing := by
  have backslash : (unit 92 : CodeUnit) ≠ unit 34 := by decide
  intro same
  rcases chunk.cases with ⟨rfl, _, notQuote⟩ | ⟨letter, _, rfl⟩ | rfl
  · exact notQuote (List.cons.inj same).1
  · exact backslash (List.cons.inj same).1
  · exact backslash (List.cons.inj same).1

theorem Escaped.injective {left right leftText rightText leftRest rightRest : JsString}
    (leftEscaped : Escaped left leftText) (rightEscaped : Escaped right rightText)
    (same : leftText ++ unit 34 :: leftRest = rightText ++ unit 34 :: rightRest) :
    left = right ∧ leftRest = rightRest := by
  induction leftEscaped generalizing right rightText with
  | nil =>
      cases rightEscaped with
      | nil => simpa using same
      | cons chunk _ =>
          rw [List.append_assoc] at same
          exact absurd same.symm chunk.not_quote
  | cons leftChunk _ ih =>
      cases rightEscaped with
      | nil =>
          rw [List.append_assoc] at same
          exact absurd same leftChunk.not_quote
      | cons rightChunk rightTail =>
          rw [List.append_assoc, List.append_assoc] at same
          obtain ⟨code, rest⟩ := leftChunk.injective rightChunk same
          obtain ⟨text, after⟩ := ih rightTail rest
          exact ⟨by rw [code, text], after⟩

theorem quote_injective {left right leftRest rightRest : JsString}
    (same : quote left ++ leftRest = quote right ++ rightRest) :
    left = right ∧ leftRest = rightRest := by
  simp only [quote, List.cons_append, List.append_assoc, List.nil_append, List.cons.injEq,
    true_and] at same
  exact (escaped_escape left).injective (escaped_escape right) same

/-! Injectivity of the whole text. -/

def Stops (rest : JsString) : Prop := ∀ code after, rest = code :: after → isNumeric code = false

theorem stops_nil : Stops [] := by
  intro code after same
  simp at same

theorem stops_cons {code : CodeUnit} (after : JsString) (stop : isNumeric code = false) :
    Stops (code :: after) := by
  rintro _ _ same
  rw [← (List.cons.inj same).1]
  exact stop

theorem itemsText_stops (items : List Json) (rest : JsString) : Stops (itemsText items ++ rest) := by
  cases items with
  | nil => exact stops_cons _ (by decide)
  | cons item items => exact stops_cons _ (by decide)

theorem fieldsText_stops (fields : List (JsString × Json)) (rest : JsString) :
    Stops (fieldsText fields ++ rest) := by
  cases fields with
  | nil => exact stops_cons _ (by decide)
  | cons field fields => exact stops_cons _ (by decide)

theorem numeric_prefix {left right leftRest rightRest : JsString}
    (leftNumeric : ∀ code ∈ left, isNumeric code = true)
    (rightNumeric : ∀ code ∈ right, isNumeric code = true)
    (leftStops : Stops leftRest) (rightStops : Stops rightRest)
    (same : left ++ leftRest = right ++ rightRest) : left = right ∧ leftRest = rightRest := by
  induction left generalizing right with
  | nil =>
      cases right with
      | nil => exact ⟨rfl, same⟩
      | cons code right =>
          have numeric := rightNumeric code (by simp)
          rw [leftStops code _ same] at numeric
          exact absurd numeric (by decide)
  | cons first left ih =>
      cases right with
      | nil =>
          have numeric := leftNumeric first (by simp)
          rw [rightStops first _ same.symm] at numeric
          exact absurd numeric (by decide)
      | cons second right =>
          obtain ⟨head, tail⟩ := List.cons.inj same
          obtain ⟨text, rest⟩ := ih (fun code member => leftNumeric code (by simp [member]))
            (fun code member => rightNumeric code (by simp [member])) tail
          exact ⟨by rw [head, text], rest⟩

/-- The kind of a value, as its first code unit shows it. No value begins with a bracket that
closes an array. -/
inductive Kind
  | null | true | false | num | str | arr | obj | closing
  deriving DecidableEq

def kind : Json → Kind
  | .null => .null
  | .bool .true => .true
  | .bool .false => .false
  | .num _ => .num
  | .str _ => .str
  | .arr _ => .arr
  | .obj _ => .obj

def kindOf (code : CodeUnit) : Kind :=
  if code = unit 110 then .null else if code = unit 116 then .true else if code = unit 102 then .false
  else if code = unit 34 then .str else if code = unit 91 then .arr
  else if code = unit 123 then .obj else if code = unit 93 then .closing else .num

theorem kind_ne_closing (value : Json) : kind value ≠ .closing := by
  match value with
  | .null | .bool true | .bool false | .num _ | .str _ | .arr _ | .obj _ => simp [kind]

theorem kindOf_numeric {code : CodeUnit} (numeric : isNumeric code = true) : kindOf code = .num := by
  have notNumeric : ∀ other ∈ [unit 110, unit 116, unit 102, unit 34, unit 91, unit 123, unit 93],
      isNumeric other = false := by
    simp only [List.mem_cons, List.not_mem_nil, or_false, forall_eq_or_imp, forall_eq]
    decide
  have excluded : ∀ other ∈ [unit 110, unit 116, unit 102, unit 34, unit 91, unit 123, unit 93],
      code ≠ other := by
    rintro other member rfl
    rw [notNumeric code member] at numeric
    exact absurd numeric (by decide)
  simp only [List.mem_cons, List.not_mem_nil, or_false, forall_eq_or_imp, forall_eq] at excluded
  simp [kindOf, excluded]

theorem stringify_first (value : Json) :
    ∃ code rest, stringify value = code :: rest ∧ kindOf code = kind value := by
  match value with
  | .null => exact ⟨_, _, rfl, by decide⟩
  | .bool true => exact ⟨_, _, rfl, by decide⟩
  | .bool false => exact ⟨_, _, rfl, by decide⟩
  | .num number =>
      obtain ⟨code, rest, text⟩ := numberText_first number
      refine ⟨code, rest, text, kindOf_numeric ?_⟩
      exact numberText_isNumeric number code (by simp [text])
  | .str text => exact ⟨_, _, rfl, rfl⟩
  | .arr [] => exact ⟨_, _, rfl, rfl⟩
  | .arr (item :: items) => exact ⟨_, _, rfl, rfl⟩
  | .obj [] => exact ⟨_, _, rfl, rfl⟩
  | .obj (field :: fields) => exact ⟨_, _, rfl, rfl⟩

theorem kind_eq {left right : Json} {leftRest rightRest : JsString}
    (same : stringify left ++ leftRest = stringify right ++ rightRest) : kind left = kind right := by
  obtain ⟨leftCode, leftText, leftEq, leftKind⟩ := stringify_first left
  obtain ⟨rightCode, rightText, rightEq, rightKind⟩ := stringify_first right
  rw [leftEq, rightEq] at same
  rw [← leftKind, ← rightKind, (List.cons.inj same).1]

theorem stringify_not_closing (value : Json) (rest after : JsString) :
    stringify value ++ rest ≠ unit 93 :: after := by
  intro same
  obtain ⟨code, text, first, shown⟩ := stringify_first value
  rw [first] at same
  rw [(List.cons.inj same).1] at shown
  exact kind_ne_closing value (shown.symm.trans (by decide))

theorem quote_not_closing (text rest after : JsString) : quote text ++ rest ≠ unit 125 :: after := by
  intro same
  exact absurd (List.cons.inj same).1 (by decide)

theorem comma_ne_bracket (left right : JsString) : unit 44 :: left ≠ unit 93 :: right := by
  intro same
  exact absurd (List.cons.inj same).1 (by decide)

theorem comma_ne_brace (left right : JsString) : unit 44 :: left ≠ unit 125 :: right := by
  intro same
  exact absurd (List.cons.inj same).1 (by decide)

mutual

theorem stringify_append_injective : ∀ (left right : Json) {leftRest rightRest : JsString},
    Stops leftRest → Stops rightRest →
    stringify left ++ leftRest = stringify right ++ rightRest →
      left = right ∧ leftRest = rightRest
  | left, right, leftRest, rightRest, leftStops, rightStops, same => by
      have kinds := kind_eq same
      match left, right with
      | .null, .null => exact ⟨rfl, List.append_cancel_left same⟩
      | .bool true, .bool true => exact ⟨rfl, List.append_cancel_left same⟩
      | .bool false, .bool false => exact ⟨rfl, List.append_cancel_left same⟩
      | .num leftNumber, .num rightNumber =>
          obtain ⟨text, rest⟩ := numeric_prefix (numberText_isNumeric leftNumber)
            (numberText_isNumeric rightNumber) leftStops rightStops same
          rw [numberText_injective text]
          exact ⟨rfl, rest⟩
      | .str leftText, .str rightText =>
          obtain ⟨text, rest⟩ := quote_injective same
          exact ⟨by rw [text], rest⟩
      | .arr [], .arr [] => exact ⟨rfl, List.append_cancel_left same⟩
      | .arr [], .arr (item :: items) =>
          simp only [stringify, List.cons_append, List.append_assoc] at same
          exact absurd (List.cons.inj same).2.symm (stringify_not_closing _ _ _)
      | .arr (item :: items), .arr [] =>
          simp only [stringify, List.cons_append, List.append_assoc] at same
          exact absurd (List.cons.inj same).2 (stringify_not_closing _ _ _)
      | .arr (leftItem :: leftItems), .arr (rightItem :: rightItems) =>
          simp only [stringify, List.cons_append, List.append_assoc, List.cons.injEq, true_and] at same
          obtain ⟨item, tail⟩ := stringify_append_injective leftItem rightItem
            (itemsText_stops _ _) (itemsText_stops _ _) same
          obtain ⟨items, rest⟩ := itemsText_append_injective leftItems rightItems
            leftStops rightStops tail
          exact ⟨by rw [item, items], rest⟩
      | .obj [], .obj [] => exact ⟨rfl, List.append_cancel_left same⟩
      | .obj [], .obj ((key, value) :: fields) =>
          simp only [stringify, List.cons_append, List.append_assoc] at same
          exact absurd (List.cons.inj same).2.symm (quote_not_closing _ _ _)
      | .obj ((key, value) :: fields), .obj [] =>
          simp only [stringify, List.cons_append, List.append_assoc] at same
          exact absurd (List.cons.inj same).2 (quote_not_closing _ _ _)
      | .obj ((leftKey, leftValue) :: leftFields), .obj ((rightKey, rightValue) :: rightFields) =>
          simp only [stringify, List.cons_append, List.append_assoc, List.cons.injEq, true_and] at same
          obtain ⟨key, colon⟩ := quote_injective same
          obtain ⟨value, tail⟩ := stringify_append_injective leftValue rightValue
            (fieldsText_stops _ _) (fieldsText_stops _ _) (List.cons.inj colon).2
          obtain ⟨fields, rest⟩ := fieldsText_append_injective leftFields rightFields
            leftStops rightStops tail
          exact ⟨by rw [key, value, fields], rest⟩

theorem itemsText_append_injective : ∀ (left right : List Json) {leftRest rightRest : JsString},
    Stops leftRest → Stops rightRest →
    itemsText left ++ leftRest = itemsText right ++ rightRest →
      left = right ∧ leftRest = rightRest
  | left, right, leftRest, rightRest, leftStops, rightStops, same => by
      match left, right with
      | [], [] => exact ⟨rfl, List.append_cancel_left same⟩
      | [], item :: items => exact absurd same.symm (comma_ne_bracket _ _)
      | item :: items, [] => exact absurd same (comma_ne_bracket _ _)
      | leftItem :: leftItems, rightItem :: rightItems =>
          simp only [itemsText, List.cons_append, List.append_assoc, List.cons.injEq, true_and] at same
          obtain ⟨item, tail⟩ := stringify_append_injective leftItem rightItem
            (itemsText_stops _ _) (itemsText_stops _ _) same
          obtain ⟨items, rest⟩ := itemsText_append_injective leftItems rightItems
            leftStops rightStops tail
          exact ⟨by rw [item, items], rest⟩

theorem fieldsText_append_injective :
    ∀ (left right : List (JsString × Json)) {leftRest rightRest : JsString},
    Stops leftRest → Stops rightRest →
    fieldsText left ++ leftRest = fieldsText right ++ rightRest →
      left = right ∧ leftRest = rightRest
  | left, right, leftRest, rightRest, leftStops, rightStops, same => by
      match left, right with
      | [], [] => exact ⟨rfl, List.append_cancel_left same⟩
      | [], (key, value) :: fields => exact absurd same.symm (comma_ne_brace _ _)
      | (key, value) :: fields, [] => exact absurd same (comma_ne_brace _ _)
      | (leftKey, leftValue) :: leftFields, (rightKey, rightValue) :: rightFields =>
          simp only [fieldsText, List.cons_append, List.append_assoc, List.cons.injEq, true_and] at same
          obtain ⟨key, colon⟩ := quote_injective same
          obtain ⟨value, tail⟩ := stringify_append_injective leftValue rightValue
            (fieldsText_stops _ _) (fieldsText_stops _ _) (List.cons.inj colon).2
          obtain ⟨fields, rest⟩ := fieldsText_append_injective leftFields rightFields
            leftStops rightStops tail
          exact ⟨by rw [key, value, fields], rest⟩

end

theorem stringify_injective {left right : Json} (same : stringify left = stringify right) :
    left = right := by
  have behind : stringify left ++ [] = stringify right ++ [] := by rw [same]
  exact (stringify_append_injective left right stops_nil stops_nil behind).1

instance : DecidableEq Json := fun left right =>
  decidable_of_iff (stringify left = stringify right)
    ⟨stringify_injective, fun equal => by rw [equal]⟩

end JsJson
