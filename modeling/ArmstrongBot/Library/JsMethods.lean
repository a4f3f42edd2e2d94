import ArmstrongBot.Library.JsText

/-! Methods of `String.prototype` that the services call, and records looked up by own key. -/

namespace JsText

/-- White space and line terminators of ECMAScript. -/
def isSpace (code : CodeUnit) : Bool :=
  (9 ≤ code.val && code.val ≤ 13) || code.val == 32 || code.val == 0xA0 || code.val == 0x1680 ||
    (0x2000 ≤ code.val && code.val ≤ 0x200A) || code.val == 0x2028 || code.val == 0x2029 ||
    code.val == 0x202F || code.val == 0x205F || code.val == 0x3000 || code.val == 0xFEFF

def trim (text : JsString) : JsString :=
  ((text.dropWhile isSpace).reverse.dropWhile isSpace).reverse

theorem trim_of_shown {text : JsString} (shown : ∀ code ∈ text, isSpace code = false) :
    trim text = text := by
  have kept {text : JsString} (shown : ∀ code ∈ text, isSpace code = false) :
      text.dropWhile isSpace = text := by
    cases text with
    | nil => rfl
    | cons first rest => simp [shown first List.mem_cons_self]
  rw [trim, kept shown, kept fun code member => shown code (List.mem_reverse.mp member),
    List.reverse_reverse]

def isUpper (code : CodeUnit) : Bool := 65 ≤ code.val && code.val ≤ 90

def isLower (code : CodeUnit) : Bool := 97 ≤ code.val && code.val ≤ 122

/-- The lower case as far as it meets ASCII: besides A to Z only the Kelvin sign has an ASCII
letter for its lower case, and every other letter stays outside ASCII. -/
def lowerUnit (code : CodeUnit) : CodeUnit :=
  if isUpper code then unit (code.val + 32) else if code.val == 0x212A then unit 107 else code

def toLowerCase (text : JsString) : JsString := text.map lowerUnit

/-- The value of a hexadecimal digit. -/
def hexValue (code : CodeUnit) : Option Nat :=
  if isDigit code then some (code.val - 48)
  else if 97 ≤ code.val ∧ code.val ≤ 102 then some (code.val - 87)
  else if 65 ≤ code.val ∧ code.val ≤ 70 then some (code.val - 55)
  else none

def split (separator : CodeUnit) (text : JsString) : List JsString := text.splitOn separator

theorem not_mem_split {separator : CodeUnit} {text piece : JsString}
    (member : piece ∈ split separator text) : separator ∉ piece := by
  induction text generalizing piece with
  | nil =>
      obtain rfl : piece = [] := by simpa [split] using member
      simp
  | cons code rest ih =>
      rw [split, List.splitOn_cons_eq_if_modifyHead] at member
      split at member
      · rcases List.mem_cons.mp member with rfl | later
        · simp
        · exact ih later
      · rename_i different
        rw [split] at ih
        cases pieces : List.splitOn separator rest with
        | nil => exact absurd pieces (List.splitOn_ne_nil separator rest)
        | cons first others =>
            rw [pieces, List.modifyHead_cons] at member
            rw [pieces] at ih
            rcases List.mem_cons.mp member with rfl | later
            · have apart : separator ≠ code := fun same => different (by simp [same])
              simp [apart, ih List.mem_cons_self]
            · exact ih (List.mem_cons_of_mem _ later)

theorem mem_split (separator : CodeUnit) {code : CodeUnit} {text : JsString}
    (member : code ∈ text) :
    code = separator ∨ ∃ piece ∈ split separator text, code ∈ piece := by
  have whole : text = [separator].intercalate (split separator text) :=
    (List.intercalate_splitOn separator).symm
  rw [whole] at member
  generalize split separator text = pieces at member
  induction pieces with
  | nil => simp at member
  | cons piece rest ih =>
      cases rest with
      | nil =>
          rw [List.intercalate_singleton] at member
          exact Or.inr ⟨piece, List.mem_cons_self, member⟩
      | cons other rest =>
          rw [List.intercalate_cons_cons, List.append_assoc, List.mem_append, List.mem_append]
            at member
          rcases member with inPiece | isSeparator | later
          · exact Or.inr ⟨piece, List.mem_cons_self, inPiece⟩
          · exact Or.inl (List.mem_singleton.mp isSeparator)
          · rcases ih later with isSeparator | ⟨found, isPiece, inPiece⟩
            · exact Or.inl isSeparator
            · exact Or.inr ⟨found, List.mem_cons_of_mem _ isPiece, inPiece⟩

theorem mem_of_mem_split {separator : CodeUnit} {text piece : JsString}
    (isPiece : piece ∈ split separator text) {code : CodeUnit} (member : code ∈ piece) :
    code ∈ text := by
  have whole : [separator].intercalate (split separator text) = text :=
    List.intercalate_splitOn separator
  rw [← whole]
  generalize split separator text = pieces at isPiece
  induction pieces with
  | nil => simp at isPiece
  | cons first rest ih =>
      cases rest with
      | nil =>
          obtain rfl := List.mem_singleton.mp isPiece
          rwa [List.intercalate_singleton]
      | cons other rest =>
          rw [List.intercalate_cons_cons, List.append_assoc, List.mem_append, List.mem_append]
          rcases List.mem_cons.mp isPiece with rfl | later
          · exact .inl member
          · exact .inr (.inr (ih later))

/-- What is joined to a text without the separator is joined to its last piece. -/
theorem split_append {separator : CodeUnit} {rest : JsString} (free : separator ∉ rest)
    (text : JsString) : ∃ init last, split separator text = init ++ [last] ∧
      split separator (text ++ rest) = init ++ [last ++ rest] := by
  induction text with
  | nil => exact ⟨[], [], rfl, List.splitOn_eq_singleton free⟩
  | cons code text ih =>
      obtain ⟨init, last, pieces, joined⟩ := ih
      rw [split] at pieces joined
      rw [split, split, List.cons_append, List.splitOn_cons_eq_if_modifyHead,
        List.splitOn_cons_eq_if_modifyHead, pieces, joined]
      split
      · exact ⟨[] :: init, last, rfl, rfl⟩
      · cases init with
        | nil => exact ⟨[], code :: last, rfl, rfl⟩
        | cons first init => exact ⟨(code :: first) :: init, last, rfl, rfl⟩

def protoName : JsString := js "__proto__"

/-- The properties of `Object.prototype`, which objects inherit. -/
def inheritedNames : List JsString :=
  [js "constructor", js "__defineGetter__", js "__defineSetter__", js "hasOwnProperty",
    js "__lookupGetter__", js "__lookupSetter__", js "isPrototypeOf", js "propertyIsEnumerable",
    js "toString", js "valueOf", protoName, js "toLocaleString"]

/-- An object used as a dictionary. -/
abbrev Record (α : Type) := JsString → Option α

namespace Record

variable {α : Type}

def empty : Record α := fun _ => none

def set (record : Record α) (key : JsString) (value : α) : Record α :=
  fun asked => if asked = key then some value else record asked

@[simp] theorem set_same (record : Record α) (key : JsString) (value : α) :
    record.set key value key = some value := by
  simp [set]

theorem set_other (record : Record α) {key asked : JsString} (value : α) (apart : asked ≠ key) :
    record.set key value asked = record asked := by
  simp [set, apart]

/-- The record that a loop of assignments leaves, each value under its own key. -/
def assign (key : α → JsString) (record : Record α) (value : α) : Record α :=
  record.set (key value) value

def ofList (key : α → JsString) (values : List α) : Record α := values.foldl (assign key) empty

theorem foldl_assign_find {key : α → JsString} {values : List α} {record : Record α}
    {asked : JsString} {value : α} (found : values.foldl (assign key) record asked = some value) :
    (value ∈ values ∧ key value = asked) ∨ record asked = some value := by
  induction values generalizing record with
  | nil => exact Or.inr found
  | cons first rest ih =>
      rcases ih found with ⟨member, same⟩ | earlier
      · exact Or.inl ⟨List.mem_cons_of_mem first member, same⟩
      · by_cases here : asked = key first
        · rw [here, assign, set_same, Option.some.injEq] at earlier
          subst earlier
          exact Or.inl ⟨List.mem_cons_self, here.symm⟩
        · rw [assign, set_other _ _ here] at earlier
          exact Or.inr earlier

/-- Of the values under one key the last one counts. -/
theorem foldl_assign_eq (key : α → JsString) (values : List α) (record : Record α)
    (asked : JsString) :
    values.foldl (assign key) record asked =
      (values.filter fun value => key value = asked).getLast?.or (record asked) := by
  induction values generalizing record with
  | nil => rfl
  | cons first rest ih =>
      rw [List.foldl_cons, ih, assign]
      by_cases here : key first = asked
      · rw [here, set_same, List.filter_cons_of_pos (by simpa using here), List.getLast?_cons]
        cases (rest.filter fun value => key value = asked).getLast? <;> rfl
      · rw [List.filter_cons_of_neg (by simpa using here), set_other record first (Ne.symm here)]

theorem ofList_find {key : α → JsString} {values : List α} {asked : JsString} {value : α}
    (found : ofList key values asked = some value) : value ∈ values ∧ key value = asked := by
  rcases foldl_assign_find found with hit | initial
  · exact hit
  · simp [empty] at initial

theorem foldl_assign_isSome {key : α → JsString} {values : List α} {record : Record α}
    {asked : JsString} (present : (∃ value ∈ values, key value = asked) ∨ (record asked).isSome) :
    (values.foldl (assign key) record asked).isSome := by
  induction values generalizing record with
  | nil => simpa using present
  | cons first rest ih =>
      apply ih
      by_cases here : asked = key first
      · right
        rw [here, assign, set_same]
        rfl
      · rw [assign, set_other _ _ here]
        rcases present with ⟨value, member, same⟩ | earlier
        · rcases List.mem_cons.mp member with rfl | later
          · exact absurd same.symm here
          · exact Or.inl ⟨value, later, same⟩
        · exact Or.inr earlier

theorem ofList_isSome {key : α → JsString} {values : List α} {value : α}
    (member : value ∈ values) : (ofList key values (key value)).isSome :=
  foldl_assign_isSome (Or.inl ⟨value, member, rfl⟩)

end Record

end JsText
