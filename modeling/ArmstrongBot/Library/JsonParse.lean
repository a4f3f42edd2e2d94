import ArmstrongBot.Library.JsMethods
import ArmstrongBot.Library.JsonObject
import ArmstrongBot.Library.Utf8

/-! `JSON.parse`, and what it makes of the texts that `JSON.stringify` writes. -/

namespace JsJson

open JsText JsNumber

/-! Strings. -/

/-- The code unit behind a backslash and a letter. -/
def unescape (letter : CodeUnit) : Option CodeUnit :=
  ((unit 47, unit 47) :: shortEscapes.map Prod.swap).lookup letter

def readHex : List CodeUnit → Option Nat
  | [] => some 0
  | code :: rest =>
      match hexValue code, readHex rest with
      | some value, some tail => some (value * 16 ^ rest.length + tail)
      | _, _ => none

/-- The code unit that a character or an escape sequence stands for. -/
def readUnit : JsString → Option (CodeUnit × JsString)
  | [] => none
  | code :: rest =>
      if code = unit 92 then
        match rest with
        | [] => none
        | letter :: rest =>
            if letter = unit 117 then
              match readHex (rest.take 4) with
              | some value => if 4 ≤ rest.length then some (unit value, rest.drop 4) else none
              | none => none
            else (unescape letter).map fun meant => (meant, rest)
      else if code.val < 32 then none
      else some (code, rest)

/-- What stands before the closing quote, and what follows it. -/
def readUnits : Nat → JsString → Option (JsString × JsString)
  | 0, _ => none
  | fuel + 1, text =>
      if text.head? = some (unit 34) then some ([], text.drop 1)
      else
        match readUnit text with
        | some (code, rest) => (readUnits fuel rest).map (Prod.map (code :: ·) id)
        | none => none

def readString (text : JsString) : Option (JsString × JsString) := readUnits text.length text

/-! Values. -/

def isJsonSpace (code : CodeUnit) : Bool :=
  code == unit 32 || code == unit 9 || code == unit 10 || code == unit 13

def skipSpace (text : JsString) : JsString := text.dropWhile isJsonSpace

def expect (word text : JsString) : Option JsString :=
  if word <+: text then some (text.drop word.length) else none

def isLiteralUnit (code : CodeUnit) : Bool := isNumeric code || code == unit 69

/-- `CreateDataProperty`, which the key `__proto__` does not escape. -/
def define (fields : Fields) (field : JsString × Json) : Fields :=
  insertField fields field.1 field.2

section

-- the number that a literal stands for, if it is one
variable (number : JsString → Option Number)

mutual

def readValue : Nat → JsString → Option (Json × JsString)
  | 0, _ => none
  | fuel + 1, text =>
      match skipSpace text with
      | [] => none
      | code :: rest =>
          match kindOf code with
          | .null => (expect (js "null") (code :: rest)).map (Prod.mk .null)
          | .true => (expect (js "true") (code :: rest)).map (Prod.mk (.bool true))
          | .false => (expect (js "false") (code :: rest)).map (Prod.mk (.bool false))
          | .str => (readString rest).map (Prod.map .str id)
          | .arr =>
              match expect [unit 93] (skipSpace rest) with
              | some after => some (.arr [], after)
              | none => (readItems fuel rest).map (Prod.map .arr id)
          | .obj =>
              match expect [unit 125] (skipSpace rest) with
              | some after => some (.obj [], after)
              | none =>
                  (readFields fuel rest).map (Prod.map (fun fields => .obj (fields.foldl define [])) id)
          | .closing => none
          | .num =>
              (number ((code :: rest).takeWhile isLiteralUnit)).map fun value =>
                (.num value, (code :: rest).dropWhile isLiteralUnit)

/-- Items up to the closing bracket. -/
def readItems : Nat → JsString → Option (List Json × JsString)
  | 0, _ => none
  | fuel + 1, text =>
      match readValue fuel text with
      | none => none
      | some (item, rest) =>
          match expect [unit 44] (skipSpace rest) with
          | some after => (readItems fuel after).map (Prod.map (item :: ·) id)
          | none => (expect [unit 93] (skipSpace rest)).map (Prod.mk [item])

/-- Fields up to the closing brace. -/
def readFields : Nat → JsString → Option (Fields × JsString)
  | 0, _ => none
  | fuel + 1, text =>
      match (expect [unit 34] (skipSpace text)).bind readString with
      | none => none
      | some (key, rest) =>
          match (expect [unit 58] (skipSpace rest)).bind (readValue fuel) with
          | none => none
          | some (value, rest) =>
              match expect [unit 44] (skipSpace rest) with
              | some after => (readFields fuel after).map (Prod.map ((key, value) :: ·) id)
              | none => (expect [unit 125] (skipSpace rest)).map (Prod.mk [(key, value)])

end

/-- `JSON.parse`; no value stands for the `SyntaxError`. -/
def parse (text : JsString) : Option Json :=
  match readValue number (text.length + 1) text with
  | some (value, rest) => if skipSpace rest = [] then some value else none
  | none => none

end

/-! The strings that `JSON.stringify` writes. -/

theorem hexValue_hexDigit {value : Nat} (bound : value < 16) :
    hexValue (hexDigit value) = some value := by
  have checked : ∀ value : Fin 16, hexValue (hexDigit value.val) = some value.val := by decide
  exact checked ⟨value, bound⟩

theorem readHex_unicodeEscape (code : CodeUnit) :
    readHex [hexDigit (code.val / 4096), hexDigit (code.val / 256 % 16),
      hexDigit (code.val / 16 % 16), hexDigit (code.val % 16)] = some code.val := by
  have bound := code.isLt
  simp only [readHex, hexValue_hexDigit (show code.val / 4096 < 16 by omega),
    hexValue_hexDigit (show code.val / 256 % 16 < 16 by omega),
    hexValue_hexDigit (show code.val / 16 % 16 < 16 by omega),
    hexValue_hexDigit (show code.val % 16 < 16 by omega), Option.some.injEq, List.length_cons,
    List.length_nil]
  omega

theorem unescape_shortEscapes : ∀ pair ∈ shortEscapes,
    pair.2 ≠ unit 117 ∧ unescape pair.2 = some pair.1 := by
  have checked : (shortEscapes.all fun pair =>
      decide (pair.2 ≠ unit 117) && decide (unescape pair.2 = some pair.1)) = true := by
    decide
  simpa only [List.all_eq_true, Bool.and_eq_true, decide_eq_true_eq] using checked

theorem lookup_control {code : CodeUnit} (absent : shortEscapes.lookup code = none)
    (shown : (code.val < 32 || isSurrogate code) = false) :
    code ≠ unit 34 ∧ code ≠ unit 92 ∧ ¬ code.val < 32 := by
  simp only [Bool.or_eq_false_iff, decide_eq_false_iff_not] at shown
  exact ⟨(plain_ne_backslash absent).2, (plain_ne_backslash absent).1, shown.1⟩

theorem surrogate_plain {code : CodeUnit} (surrogate : isSurrogate code = true) :
    code ≠ unit 34 ∧ code ≠ unit 92 ∧ ¬ code.val < 32 := by
  refine ⟨surrogate_ne_ascii surrogate (by omega), surrogate_ne_ascii surrogate (by omega), ?_⟩
  simp only [isSurrogate, isLeadSurrogate, isTrailSurrogate, Bool.or_eq_true, Bool.and_eq_true,
    decide_eq_true_eq] at surrogate
  omega

theorem readUnit_plain {code : CodeUnit} (plain : code ≠ unit 34 ∧ code ≠ unit 92 ∧ ¬ code.val < 32)
    (rest : JsString) : readUnit (code :: rest) = some (code, rest) := by
  simp only [readUnit, if_neg plain.2.1, if_neg plain.2.2]

theorem readUnit_chunk {code : CodeUnit} {chunk : JsString} (isChunk : Chunk code chunk)
    (rest : JsString) : readUnit (chunk ++ rest) = some (code, rest) := by
  rcases isChunk with escaped | ⟨same, surrogate⟩
  · subst chunk
    unfold escapeUnit
    cases found : shortEscapes.lookup code with
    | some letter =>
        obtain ⟨notU, meant⟩ := unescape_shortEscapes _ (mem_of_lookup found)
        simp [readUnit, notU, meant]
    | none =>
        simp only []
        split
        · have digits := readHex_unicodeEscape code
          simp [readUnit, unicodeEscape, digits, unit]
        · rename_i shown
          exact readUnit_plain (lookup_control found (by simpa using shown)) rest
  · subst same
    exact readUnit_plain (surrogate_plain surrogate) rest

theorem Chunk.head {code : CodeUnit} {chunk : JsString} (isChunk : Chunk code chunk)
    (rest : JsString) : (chunk ++ rest).head? ≠ some (unit 34) ∧ 0 < chunk.length := by
  constructor
  · intro quote
    obtain ⟨closing, equal⟩ := List.head?_eq_some_iff.mp quote
    exact isChunk.not_quote equal
  · rcases isChunk.cases with ⟨rfl, _⟩ | ⟨letter, _, rfl⟩ | rfl <;> simp [unicodeEscape]

theorem readUnits_escaped {text escaped : JsString} (isEscaped : Escaped text escaped)
    (rest : JsString) : ∀ fuel, escaped.length < fuel →
      readUnits fuel (escaped ++ unit 34 :: rest) = some (text, rest) := by
  induction isEscaped with
  | nil =>
      intro fuel enough
      obtain ⟨fuel, rfl⟩ : ∃ less, fuel = less + 1 := ⟨fuel - 1, by simp at enough; omega⟩
      rw [List.nil_append, readUnits, if_pos List.head?_cons]
      rfl
  | @cons code chunk text escaped isChunk _ ih =>
      intro fuel enough
      have shape := isChunk.head (escaped ++ unit 34 :: rest)
      rw [List.length_append] at enough
      obtain ⟨fuel, rfl⟩ : ∃ less, fuel = less + 1 := ⟨fuel - 1, by omega⟩
      rw [List.append_assoc, readUnits, if_neg shape.1, readUnit_chunk isChunk]
      simp only []
      rw [ih fuel (by omega)]
      rfl

theorem quote_append (text rest : JsString) :
    quote text ++ rest = unit 34 :: (escape text ++ unit 34 :: rest) := by
  simp [quote]

theorem readString_quote (text rest : JsString) :
    readString (escape text ++ unit 34 :: rest) = some (text, rest) := by
  refine readUnits_escaped (escaped_escape text) rest _ ?_
  rw [List.length_append, List.length_cons]
  omega

/-! The values that `JSON.stringify` writes. -/

mutual

/-- A value with the fields of its objects in the order in which an object keeps them. -/
def rebuild : Json → Json
  | .arr items => .arr (rebuildItems items)
  | .obj fields => .obj ((rebuildFields fields).foldl define [])
  | value => value

def rebuildItems : List Json → List Json
  | [] => []
  | item :: items => rebuild item :: rebuildItems items

def rebuildFields : Fields → Fields
  | [] => []
  | (key, value) :: fields => (key, rebuild value) :: rebuildFields fields

end

theorem skipSpace_cons {code : CodeUnit} (shown : isJsonSpace code = false) (rest : JsString) :
    skipSpace (code :: rest) = code :: rest := by
  rw [skipSpace, List.dropWhile_cons_of_neg (by simp [shown])]

theorem expect_append (word rest : JsString) : expect word (word ++ rest) = some rest := by
  rw [expect, if_pos (List.prefix_append word rest), List.drop_left' rfl]

theorem expect_one (code : CodeUnit) (rest : JsString) : expect [code] (code :: rest) = some rest :=
  expect_append [code] rest

theorem expect_other {code other : CodeUnit} (apart : code ≠ other) (rest : JsString) :
    expect [code] (other :: rest) = none := by
  rw [expect, if_neg]
  rw [List.cons_prefix_cons]
  exact fun both => apart both.1

theorem isJsonSpace_numeric {code : CodeUnit} (numeric : isNumeric code = true) :
    isJsonSpace code = false := by
  simp only [isNumeric, isDigit, Bool.or_eq_true, Bool.and_eq_true, decide_eq_true_eq,
    beq_iff_eq] at numeric
  simp only [isJsonSpace, Bool.or_eq_false_iff, beq_eq_false_iff_ne]
  refine ⟨⟨⟨?_, ?_⟩, ?_⟩, ?_⟩ <;>
    (rintro rfl; exact absurd numeric (by decide))

/-- A value starts with a code unit that is no white space. -/
theorem stringify_shown (value : Json) :
    ∃ code rest, stringify value = code :: rest ∧ kindOf code = kind value ∧
      isJsonSpace code = false := by
  obtain ⟨code, rest, text, sameKind⟩ := stringify_first value
  refine ⟨code, rest, text, sameKind, ?_⟩
  match value with
  | .null | .bool true | .bool false | .arr [] | .arr (_ :: _) | .obj [] | .obj ((_, _) :: _)
  | .str _ =>
      have start := (List.cons.inj text).1
      rw [← start]
      decide
  | .num number => exact isJsonSpace_numeric (numberText_isNumeric number code (by
      rw [show numberText number = code :: rest from text]
      exact List.mem_cons_self))

section

variable {number : JsString → Option Number}

/-- What follows a value in a text that `JSON.stringify` writes. -/
def Delimits (rest : JsString) : Prop :=
  rest = [] ∨ ∃ code after, rest = code :: after ∧ code ∈ [unit 44, unit 93, unit 125]

theorem Delimits.cases {rest : JsString} (delimits : Delimits rest) :
    rest = [] ∨ ∃ code after, rest = code :: after ∧ isLiteralUnit code = false := by
  refine delimits.imp_right fun ⟨code, after, same, member⟩ => ⟨code, after, same, ?_⟩
  simp only [List.mem_cons, List.not_mem_nil, or_false] at member
  rcases member with rfl | rfl | rfl <;> decide

theorem delimits_items (items : List Json) (rest : JsString) :
    Delimits (itemsText items ++ rest) := by
  cases items with
  | nil => exact Or.inr ⟨unit 93, rest, rfl, by simp⟩
  | cons item items => exact Or.inr ⟨unit 44, _, rfl, by simp⟩

theorem delimits_fields (fields : Fields) (rest : JsString) :
    Delimits (fieldsText fields ++ rest) := by
  cases fields with
  | nil => exact Or.inr ⟨unit 125, rest, rfl, by simp⟩
  | cons field fields => exact Or.inr ⟨unit 44, _, rfl, by simp⟩

theorem literal_split (value : Number) {rest : JsString} (delimits : Delimits rest) :
    (numberText value ++ rest).takeWhile isLiteralUnit = numberText value ∧
      (numberText value ++ rest).dropWhile isLiteralUnit = rest := by
  have literal : ∀ code ∈ numberText value, isLiteralUnit code = true := by
    intro code member
    rw [isLiteralUnit, numberText_isNumeric value code member, Bool.true_or]
  rw [List.takeWhile_append_of_pos literal, List.dropWhile_append_of_pos literal]
  rcases delimits.cases with rfl | ⟨code, after, rfl, stops⟩
  · simp
  · rw [List.takeWhile_cons_of_neg (by simp [stops]), List.dropWhile_cons_of_neg (by simp [stops]),
      List.append_nil]
    exact ⟨rfl, rfl⟩

variable (reads : ∀ value, number (numberText value) = some value)
include reads

mutual

theorem readValue_stringify : ∀ (value : Json) (fuel : Nat) {rest : JsString}, Delimits rest →
    (stringify value).length < fuel →
    readValue number fuel (stringify value ++ rest) = some (rebuild value, rest)
  | value, 0, _, _, enough => absurd enough (Nat.not_lt_zero _)
  | value, fuel + 1, rest, delimits, enough => by
      obtain ⟨code, tail, text, sameKind, shown⟩ := stringify_shown value
      rw [text, List.cons_append, readValue]
      simp only [skipSpace_cons shown, sameKind]
      match value with
      | .null =>
          simp only [kind]
          rw [← List.cons_append, ← text, stringify, expect_append]
          rfl
      | .bool true =>
          simp only [kind]
          rw [← List.cons_append, ← text, stringify, expect_append]
          rfl
      | .bool false =>
          simp only [kind]
          rw [← List.cons_append, ← text, stringify, expect_append]
          rfl
      | .num value =>
          simp only [kind]
          rw [← List.cons_append, ← text, stringify, (literal_split value delimits).1,
            (literal_split value delimits).2, reads]
          rfl
      | .str value =>
          have parts : tail ++ rest = escape value ++ unit 34 :: rest := by
            have whole := quote_append value rest
            rw [← stringify, text, List.cons_append] at whole
            exact (List.cons.inj whole).2
          simp only [kind]
          rw [parts, readString_quote]
          rfl
      | .arr [] =>
          have parts : tail = [unit 93] := (List.cons.inj text).2.symm
          simp only [kind]
          rw [parts, List.singleton_append, skipSpace_cons (by decide), expect_one]
          rfl
      | .arr (item :: items) =>
          rw [stringify] at text enough
          have parts : tail = stringify item ++ itemsText items := (List.cons.inj text).2.symm
          obtain ⟨first, others, itemText, _, itemShown⟩ := stringify_shown item
          have open_ : expect [unit 93] (skipSpace (tail ++ rest)) = none := by
            rw [parts, itemText, List.cons_append, List.cons_append, skipSpace_cons itemShown]
            refine expect_other ?_ _
            rintro rfl
            exact stringify_not_closing item [] others (by rw [List.append_nil, itemText])
          rw [List.length_cons, List.length_append] at enough
          have within := readItems_stringify item items fuel rest (by omega)
          simp only [kind, open_]
          rw [parts, List.append_assoc, within]
          rfl
      | .obj [] =>
          have parts : tail = [unit 125] := (List.cons.inj text).2.symm
          simp only [kind]
          rw [parts, List.singleton_append, skipSpace_cons (by decide), expect_one]
          rfl
      | .obj ((key, value) :: fields) =>
          rw [stringify] at text enough
          have parts : tail = quote key ++ unit 58 :: (stringify value ++ fieldsText fields) :=
            (List.cons.inj text).2.symm
          have open_ : expect [unit 125] (skipSpace (tail ++ rest)) = none := by
            rw [parts, List.append_assoc, quote_append, skipSpace_cons (by decide)]
            exact expect_other (by decide) _
          rw [List.length_cons, List.length_append, List.length_cons, List.length_append] at enough
          have within := readFields_stringify key value fields fuel rest (by omega)
          simp only [kind, open_]
          rw [parts, List.append_assoc, List.cons_append, List.append_assoc, within]
          rfl

theorem readItems_stringify : ∀ (item : Json) (items : List Json) (fuel : Nat) (rest : JsString),
    (stringify item).length + (itemsText items).length < fuel →
    readItems number fuel (stringify item ++ (itemsText items ++ rest)) =
      some (rebuildItems (item :: items), rest)
  | _, _, 0, _, enough => absurd enough (Nat.not_lt_zero _)
  | item, [], fuel + 1, rest, enough => by
      have first := readValue_stringify item fuel (delimits_items [] rest)
        (by simp only [itemsText, List.length_singleton] at enough; omega)
      rw [readItems, first]
      simp only [itemsText, List.singleton_append]
      rw [skipSpace_cons (by decide), expect_other (by decide)]
      simp only [expect_one]
      rfl
  | item, next :: items, fuel + 1, rest, enough => by
      simp only [itemsText, List.length_cons, List.length_append] at enough
      have first := readValue_stringify item fuel (delimits_items (next :: items) rest) (by omega)
      obtain ⟨code, tail, itemText, _⟩ := stringify_first item
      have nonempty : 0 < (stringify item).length := by rw [itemText]; simp
      have others := readItems_stringify next items fuel rest (by omega)
      rw [readItems, first]
      simp only [itemsText, List.cons_append, List.append_assoc]
      rw [skipSpace_cons (by decide), expect_one]
      simp only [others]
      rfl

theorem readFields_stringify : ∀ (key : JsString) (value : Json) (fields : Fields) (fuel : Nat)
    (rest : JsString),
    (quote key).length + 1 + (stringify value).length + (fieldsText fields).length < fuel →
    readFields number fuel
        (quote key ++ unit 58 :: (stringify value ++ (fieldsText fields ++ rest))) =
      some (rebuildFields ((key, value) :: fields), rest)
  | _, _, _, 0, _, enough => absurd enough (Nat.not_lt_zero _)
  | key, value, [], fuel + 1, rest, enough => by
      have first := readValue_stringify value fuel (delimits_fields [] rest)
        (by simp only [fieldsText, List.length_singleton] at enough; omega)
      rw [quote_append, readFields, skipSpace_cons (by decide), expect_one, Option.bind_some,
        readString_quote]
      simp only []
      rw [skipSpace_cons (by decide), expect_one, Option.bind_some, first]
      simp only [fieldsText, List.singleton_append]
      rw [skipSpace_cons (by decide), expect_other (by decide)]
      simp only [expect_one]
      rfl
  | key, value, (nextKey, next) :: fields, fuel + 1, rest, enough => by
      simp only [fieldsText, List.length_cons, List.length_append] at enough
      have first := readValue_stringify value fuel (delimits_fields ((nextKey, next) :: fields) rest)
        (by omega)
      have others := readFields_stringify nextKey next fields fuel rest (by omega)
      rw [quote_append, readFields, skipSpace_cons (by decide), expect_one, Option.bind_some,
        readString_quote]
      simp only []
      rw [skipSpace_cons (by decide), expect_one, Option.bind_some, first]
      simp only [fieldsText, List.cons_append, List.append_assoc]
      rw [skipSpace_cons (by decide), expect_one]
      simp only [others]
      rfl

end

/-- `JSON.parse(JSON.stringify(value))` -/
theorem parse_stringify (value : Json) : parse number (stringify value) = some (rebuild value) := by
  have ends : Delimits [] := Or.inl rfl
  have whole := readValue_stringify reads value ((stringify value).length + 1) ends (by omega)
  rw [List.append_nil] at whole
  rw [parse, whole]
  rfl

end

/-- An object keeps the order in which fields were defined, array indices apart. -/
theorem foldl_define {fields : Fields} (distinct : (keys fields).Nodup)
    (named : ∀ key ∈ keys fields, isArrayIndex key = false) : fields.foldl define [] = fields := by
  have placed (front : Fields) (key : JsString) (value : Json) (apart : key ∉ keys front)
      (isName : isArrayIndex key = false) :
      insertField front key value = front ++ [(key, value)] := by
    induction front with
    | nil => rfl
    | cons field front ih =>
        obtain ⟨other, otherValue⟩ := field
        simp only [keys, List.map_cons, List.mem_cons, not_or] at apart
        have late : precedes key other = false := by rw [precedes, isName, Bool.false_and]
        rw [insertField, if_neg apart.1, late, if_neg (by decide), ih apart.2]
        rfl
  have onwards (front later : Fields) (apart : (keys (front ++ later)).Nodup)
      (laterNamed : ∀ key ∈ keys later, isArrayIndex key = false) :
      later.foldl define front = front ++ later := by
    induction later generalizing front with
    | nil => simp
    | cons field later ih =>
        obtain ⟨key, value⟩ := field
        have fresh : key ∉ keys front := by
          rw [keys, List.map_append, List.nodup_append] at apart
          exact fun member => apart.2.2 key member key List.mem_cons_self rfl
        rw [List.foldl_cons, define, placed front key value fresh (laterNamed key List.mem_cons_self),
          ih (front ++ [(key, value)]) (by simpa using apart)
            fun other member => laterNamed other (List.mem_cons_of_mem _ member)]
        simp
  simpa using onwards [] fields (by simpa using distinct) named

/-! The texts that `JSON.stringify` writes have no unpaired surrogates. -/

open Utf8 (Paired IsAscii paired_of_ascii)

theorem ascii_numeric {text : JsString} (numeric : ∀ code ∈ text, isNumeric code = true) :
    IsAscii text := by
  intro code member
  have shown := numeric code member
  simp only [isNumeric, isDigit, Bool.or_eq_true, Bool.and_eq_true, decide_eq_true_eq,
    beq_iff_eq] at shown
  rcases shown with (((digit | rfl) | rfl) | rfl) | rfl
  · omega
  all_goals decide

theorem ascii_checked {text : JsString} (checked : (text.all fun code => decide (code.val < 0x80)) = true) :
    IsAscii text := by
  intro code member
  simpa using List.all_eq_true.mp checked code member

theorem paired_escapeUnit (code : CodeUnit) : Paired (escapeUnit code) := by
  unfold escapeUnit
  cases found : shortEscapes.lookup code with
  | some letter =>
      refine paired_of_ascii ?_
      have letters : (shortEscapes.all fun pair =>
          [unit 92, pair.2].all fun code => decide (code.val < 0x80)) = true := by decide
      exact ascii_checked (List.all_eq_true.mp letters _ (mem_of_lookup found))
  | none =>
      simp only []
      split
      · refine paired_of_ascii ?_
        have digits : ∀ value, value < 16 → (hexDigit value).val < 0x80 := by decide
        have bound := code.isLt
        simp only [IsAscii, unicodeEscape, List.forall_mem_cons]
        exact ⟨by decide, by decide, digits _ (by omega), digits _ (by omega), digits _ (by omega),
          digits _ (by omega), by simp⟩
      · rename_i shown
        simp only [Bool.or_eq_true, not_or, Bool.not_eq_true, isSurrogate] at shown
        exact .one shown.2.1 shown.2.2 .nil

theorem paired_escape (text : JsString) : Paired (escape text) := by
  induction text using escape.induct with
  | case1 => exact .nil
  | case2 code => simpa only [escape] using paired_escapeUnit code
  | case3 code next rest pair ih =>
      rw [escape, if_pos pair]
      rw [Bool.and_eq_true] at pair
      exact .two pair.1 pair.2 ih
  | case4 code next rest single ih =>
      rw [escape, if_neg single]
      exact (paired_escapeUnit code).append ih

theorem Paired.mark {code : Nat} (ascii : code < 0x80) {rest : JsString} (paired : Paired rest) :
    Paired (unit code :: rest) := by
  have alone : IsAscii [unit code] := by
    intro other member
    rw [List.mem_singleton.mp member, unit_val (by omega)]
    exact ascii
  exact (paired_of_ascii alone).append paired

theorem paired_quote (text : JsString) : Paired (quote text) :=
  Paired.mark (by decide) ((paired_escape text).append (Paired.mark (by decide) .nil))

mutual

theorem paired_stringify : ∀ value, Paired (stringify value)
  | .null => paired_of_ascii (ascii_checked (by decide))
  | .bool true => paired_of_ascii (ascii_checked (by decide))
  | .bool false => paired_of_ascii (ascii_checked (by decide))
  | .num value => paired_of_ascii (ascii_numeric (numberText_isNumeric value))
  | .str value => paired_quote value
  | .arr [] => paired_of_ascii (ascii_checked (by decide))
  | .arr (item :: items) =>
      Paired.mark (by decide) ((paired_stringify item).append (paired_itemsText items))
  | .obj [] => paired_of_ascii (ascii_checked (by decide))
  | .obj ((key, value) :: fields) =>
      Paired.mark (by decide) ((paired_quote key).append
        (Paired.mark (by decide) ((paired_stringify value).append (paired_fieldsText fields))))

theorem paired_itemsText : ∀ items, Paired (itemsText items)
  | [] => Paired.mark (by decide) .nil
  | item :: items =>
      Paired.mark (by decide) ((paired_stringify item).append (paired_itemsText items))

theorem paired_fieldsText : ∀ fields, Paired (fieldsText fields)
  | [] => Paired.mark (by decide) .nil
  | (key, value) :: fields =>
      Paired.mark (by decide) ((paired_quote key).append
        (Paired.mark (by decide) ((paired_stringify value).append (paired_fieldsText fields))))

end

end JsJson
