import ArmstrongBot.Library.JsMethods
import ArmstrongBot.Library.SolidCode
import Mathlib.Data.List.Chain
import Mathlib.Data.List.TakeWhile

/-! `SanitizerService`: the texts, file names and HTML that are let through. -/

namespace Sanitizer

open JsText
open SolidCode (Code Contains Nests remove contains_remove_iff remove_of_free)

/-! Mentions. -/

inductive Mention : JsString → Prop
  | everyone : Mention (js "@everyone")
  | here : Mention (js "@here")
  | member {sigil digits : JsString} (marked : sigil ∈ [[], [unit 33], [unit 38]])
      (named : digits ≠ []) (numeric : ∀ digit ∈ digits, isDigit digit = true) :
      Mention (unit 60 :: unit 64 :: (sigil ++ (digits ++ [unit 62])))

/-- `[!&]?` -/
def sigilOf : JsString → JsString
  | first :: _ => if first = unit 33 ∨ first = unit 38 then [first] else []
  | [] => []

/-- `\d+>`, with the length of the match -/
def matchDigits (text : JsString) : Option Nat :=
  let digits := text.takeWhile isDigit
  if digits ≠ [] ∧ (text.dropWhile isDigit).head? = some (unit 62) then some (digits.length + 1)
  else none

/-- `<@[!&]?\d+>` -/
def matchMember : JsString → Option Nat
  | first :: second :: rest =>
      if first = unit 60 ∧ second = unit 64 then
        (matchDigits (rest.drop (sigilOf rest).length)).map (2 + (sigilOf rest).length + ·)
      else none
  | _ => none

/-- The length of the match of `MENTION` at the start of a text. -/
def matchMention (text : JsString) : Option Nat :=
  (matchMember text).or
    (if js "@everyone" <+: text then some 9 else if js "@here" <+: text then some 5 else none)

theorem matchDigits_some {text : JsString} {length : Nat} (found : matchDigits text = some length) :
    ∃ digits rest, text = digits ++ unit 62 :: rest ∧ digits ≠ [] ∧
      (∀ digit ∈ digits, isDigit digit = true) ∧ length = digits.length + 1 := by
  simp only [matchDigits] at found
  split at found
  · rename_i matched
    obtain ⟨rest, closed⟩ := List.head?_eq_some_iff.mp matched.2
    refine ⟨text.takeWhile isDigit, rest, ?_, matched.1, fun digit => List.mem_takeWhile_imp, ?_⟩
    · rw [← closed, List.takeWhile_append_dropWhile]
    · simpa using found.symm
  · simp at found

theorem matchDigits_append {digits : JsString} (named : digits ≠ [])
    (numeric : ∀ digit ∈ digits, isDigit digit = true) (rest : JsString) :
    matchDigits (digits ++ unit 62 :: rest) = some (digits.length + 1) := by
  have stops : isDigit (unit 62) = false := by decide
  have taken : (digits ++ unit 62 :: rest).takeWhile isDigit = digits := by
    rw [List.takeWhile_append_of_pos numeric, List.takeWhile_cons_of_neg (by simp [stops]),
      List.append_nil]
  have left : (digits ++ unit 62 :: rest).dropWhile isDigit = unit 62 :: rest := by
    rw [List.dropWhile_append_of_pos numeric, List.dropWhile_cons_of_neg (by simp [stops])]
  simp [matchDigits, taken, left, named]

theorem sigilOf_prefix (text : JsString) :
    sigilOf text ++ text.drop (sigilOf text).length = text ∧
      sigilOf text ∈ [[], [unit 33], [unit 38]] := by
  cases text with
  | nil => simp [sigilOf]
  | cons first text =>
      simp only [sigilOf]
      split
      · rename_i marked
        rcases marked with rfl | rfl <;> simp
      · simp

theorem sigilOf_append {sigil digits : JsString} (marked : sigil ∈ [[], [unit 33], [unit 38]])
    (named : digits ≠ []) (numeric : ∀ digit ∈ digits, isDigit digit = true) (rest : JsString) :
    sigilOf (sigil ++ (digits ++ rest)) = sigil := by
  obtain ⟨first, digits, rfl⟩ := List.exists_cons_of_ne_nil named
  have unmarked : first ≠ unit 33 ∧ first ≠ unit 38 := by
    have digit := numeric first List.mem_cons_self
    constructor <;> (rintro rfl; exact absurd digit (by decide))
  simp only [List.mem_cons, List.not_mem_nil, or_false] at marked
  rcases marked with rfl | rfl | rfl
  · simp [sigilOf, unmarked]
  · simp [sigilOf]
  · simp [sigilOf]

theorem matchMember_some {text : JsString} {length : Nat} (found : matchMember text = some length) :
    ∃ w rest, text = w ++ rest ∧ Mention w ∧ w.length = length := by
  match text, found with
  | [], found => simp [matchMember] at found
  | [_], found => simp [matchMember] at found
  | first :: second :: rest, found =>
      simp only [matchMember] at found
      split at found
      · rename_i opening
        obtain ⟨rfl, rfl⟩ := opening
        obtain ⟨total, matched, rfl⟩ := Option.map_eq_some_iff.mp found
        obtain ⟨digits, tail, parts, named, numeric, rfl⟩ := matchDigits_some matched
        obtain ⟨whole, marked⟩ := sigilOf_prefix rest
        refine ⟨_, tail, ?_, .member marked named numeric, ?_⟩
        · rw [← whole, parts]
          simp [sigilOf_append marked named numeric]
        · simp
          omega
      · simp at found

theorem matchMember_append {sigil digits : JsString} (marked : sigil ∈ [[], [unit 33], [unit 38]])
    (named : digits ≠ []) (numeric : ∀ digit ∈ digits, isDigit digit = true) (rest : JsString) :
    matchMember (unit 60 :: unit 64 :: (sigil ++ (digits ++ [unit 62])) ++ rest) =
      some (unit 60 :: unit 64 :: (sigil ++ (digits ++ [unit 62]))).length := by
  have shape : unit 60 :: unit 64 :: (sigil ++ (digits ++ [unit 62])) ++ rest =
      unit 60 :: unit 64 :: (sigil ++ (digits ++ unit 62 :: rest)) := by
    simp
  rw [shape, matchMember, if_pos ⟨rfl, rfl⟩, sigilOf_append marked named numeric,
    List.drop_left' rfl, matchDigits_append named numeric]
  simp
  omega

theorem matchMention_some {text : JsString} {length : Nat}
    (found : matchMention text = some length) :
    ∃ w rest, text = w ++ rest ∧ Mention w ∧ w.length = length := by
  rw [matchMention] at found
  cases direct : matchMember text with
  | some span =>
      rw [direct, Option.some_or, Option.some.injEq] at found
      exact found ▸ matchMember_some direct
  | none =>
      rw [direct, Option.none_or] at found
      split at found
      · rename_i begins
        obtain ⟨rest, rfl⟩ := begins
        exact ⟨_, rest, rfl, .everyone, Option.some.inj found⟩
      · split at found
        · rename_i begins
          obtain ⟨rest, rfl⟩ := begins
          exact ⟨_, rest, rfl, .here, Option.some.inj found⟩
        · simp at found

theorem matchMention_append {w : JsString} (mention : Mention w) (rest : JsString) :
    matchMention (w ++ rest) = some w.length := by
  cases mention with
  | everyone =>
      have other : matchMember (js "@everyone" ++ rest) = none := rfl
      rw [matchMention, other, Option.none_or, if_pos (List.prefix_append ..)]
      rfl
  | here =>
      have other : matchMember (js "@here" ++ rest) = none := rfl
      have apart : ¬ js "@everyone" <+: js "@here" ++ rest := by
        rintro ⟨tail, equal⟩
        have third := congrArg (fun text => text[2]?) equal
        simp [js, encodeChar] at third
        exact absurd third (by decide)
      rw [matchMention, other, Option.none_or, if_neg apart, if_pos (List.prefix_append ..)]
      rfl
  | member marked named numeric =>
      rw [matchMention, matchMember_append marked named numeric, Option.some_or]

/-! No mention starts within another one: the units `<` and `@` stand at its front only, and what
follows the `@` tells a member from a name. -/

def inner (code : CodeUnit) : Bool := code != unit 60 && code != unit 64

theorem Mention.shape {w : JsString} (mention : Mention w) :
    ∃ second body, (second :: body).all inner = true ∧
      ((w = unit 64 :: second :: body ∧ isLower second = true) ∨
        (w = unit 60 :: unit 64 :: second :: body ∧ isLower second = false)) := by
  cases mention with
  | everyone => exact ⟨unit 101, js "veryone", by decide, Or.inl ⟨by decide, by decide⟩⟩
  | here => exact ⟨unit 104, js "ere", by decide, Or.inl ⟨by decide, by decide⟩⟩
  | @member sigil digits marked named numeric =>
      have digitsInner : ∀ digit ∈ digits, inner digit = true ∧ isLower digit = false := by
        intro digit member
        have bounds := numeric digit member
        simp only [isDigit, Bool.and_eq_true, decide_eq_true_eq] at bounds
        constructor
        · simp only [inner, Bool.and_eq_true, bne_iff_ne]
          constructor <;> (rintro rfl; exact absurd bounds (by decide))
        · simp only [isLower, Bool.and_eq_false_iff, decide_eq_false_iff_not]
          omega
      obtain ⟨first, rest, rfl⟩ := List.exists_cons_of_ne_nil named
      have firstDigit := digitsInner first List.mem_cons_self
      have restInner : (rest ++ [unit 62]).all inner = true := by
        rw [List.all_append, List.all_eq_true.mpr fun digit member =>
          (digitsInner digit (List.mem_cons_of_mem _ member)).1]
        decide
      simp only [List.mem_cons, List.not_mem_nil, or_false] at marked
      rcases marked with rfl | rfl | rfl
      · refine ⟨first, rest ++ [unit 62], ?_, Or.inr ⟨rfl, firstDigit.2⟩⟩
        rw [List.all_cons, firstDigit.1, restInner]
        rfl
      · refine ⟨unit 33, first :: rest ++ [unit 62], ?_, Or.inr ⟨rfl, by decide⟩⟩
        rw [List.cons_append, List.all_cons, List.all_cons, firstDigit.1, restInner]
        decide
      · refine ⟨unit 38, first :: rest ++ [unit 62], ?_, Or.inr ⟨rfl, by decide⟩⟩
        rw [List.cons_append, List.all_cons, List.all_cons, firstDigit.1, restInner]
        decide

/-- A mention that reaches into a text does not do so from the front of another mention. -/
theorem Mention.front_eq_nil {front back w : JsString} (outer : Mention (front ++ back))
    (after rest : JsString) (reaches : back ≠ []) (mention : Mention w) (meet : back ++ after = w ++ rest) : front = [] := by
  obtain ⟨unit_, back, rfl⟩ := List.exists_cons_of_ne_nil reaches
  by_contra cut
  obtain ⟨first, front, rfl⟩ := List.exists_cons_of_ne_nil cut
  obtain ⟨second, body, bodyInner, outerShape⟩ := outer.shape
  obtain ⟨other, tail, tailInner, shape⟩ := mention.shape
  -- the unit that starts `w` is a `<` or an `@`
  have opening : inner unit_ = false := by
    rcases shape with ⟨rfl, _⟩ | ⟨rfl, _⟩ <;>
      exact (List.cons.inj meet).1 ▸ by decide
  have notInside : unit_ ∉ second :: body := by
    intro member
    rw [List.all_eq_true.mp bodyInner unit_ member] at opening
    exact absurd opening (by decide)
  rcases outerShape with ⟨equal, _⟩ | ⟨equal, number⟩
  · rw [List.cons_append] at equal
    exact notInside ((List.cons.inj equal).2 ▸ by simp)
  · rw [List.cons_append] at equal
    have later := (List.cons.inj equal).2
    cases front with
    | nil =>
        obtain ⟨rfl, rfl⟩ := List.cons.inj later
        rcases shape with ⟨rfl, letter⟩ | ⟨rfl, _⟩
        · have sameSecond := (List.cons.inj (List.cons.inj meet).2).1
          rw [sameSecond, letter] at number
          exact absurd number (by decide)
        · exact absurd (List.cons.inj meet).1 (by decide)
    | cons next front =>
        rw [List.cons_append] at later
        exact notInside ((List.cons.inj later).2 ▸ by simp)

theorem Mention.append_eq {w rest : JsString} (mention : Mention w) (longer : Mention (w ++ rest)) :
    rest = [] := by
  have length := matchMention_append longer []
  rw [List.append_nil, matchMention_append mention rest, Option.some.injEq, List.length_append] at length
  exact List.eq_nil_of_length_eq_zero (by omega)

def mentions : Code CodeUnit :=
  { word := Mention
    find := matchMention
    find_iff := by
      intro text length
      constructor
      · intro found
        obtain ⟨w, rest, rfl, mention, rfl⟩ := matchMention_some found
        rw [List.take_left' rfl, List.length_append]
        exact ⟨by omega, mention⟩
      · rintro ⟨bound, mention⟩
        have found := matchMention_append mention (text.drop length)
        rwa [List.take_append_drop, List.length_take_of_le bound] at found
    long := by
      intro w mention
      obtain ⟨second, body, _, ⟨rfl, _⟩ | ⟨rfl, _⟩⟩ := mention.shape <;> simp
    overlap := by
      intro front shared rest outer mention nonempty
      have nothing := outer.front_eq_nil rest [] nonempty mention (by simp)
      subst nothing
      exact ⟨rfl, outer.append_eq mention⟩
    inside := by
      intro front w rest mention outer
      rw [List.append_assoc] at outer
      have nonempty : w ++ rest ≠ [] := by
        obtain ⟨second, body, _, ⟨rfl, _⟩ | ⟨rfl, _⟩⟩ := mention.shape <;> simp
      have nothing := outer.front_eq_nil [] rest nonempty mention (List.append_nil _)
      subst nothing
      exact ⟨rfl, mention.append_eq outer⟩ }

/-! White space. -/

/-- The white space read so far since the last other unit. -/
inductive Run
  | none
  | one (code : CodeUnit)
  | many

def Run.push : Run → CodeUnit → Run
  | .none, code => .one code
  | _, _ => .many

def Run.flush : Run → JsString
  | .none => []
  | .one code => [code]
  | .many => [unit 32]

def collapseFrom : Run → JsString → JsString
  | run, [] => run.flush
  | run, code :: text =>
      if isSpace code then collapseFrom (run.push code) text
      else run.flush ++ code :: collapseFrom .none text

/-- `replace(/\s{2,}/g, ' ')` -/
def collapse (text : JsString) : JsString := collapseFrom .none text

def stripMentions (input : JsString) : JsString := trim (collapse (remove mentions input))

/-- What a run holds of white space. -/
def Run.Blank : Run → Prop
  | .one code => isSpace code = true
  | _ => True

theorem Run.Blank.push {run : Run} {code : CodeUnit} (space : isSpace code = true) :
    (run.push code).Blank := by
  cases run <;> simp [Run.push, Run.Blank, space]

theorem Run.Blank.flush {run : Run} (blank : run.Blank) : ∀ code ∈ run.flush, isSpace code = true := by
  cases run with
  | none => simp [Run.flush]
  | one code =>
      rintro other member
      rw [List.mem_singleton.mp member]
      exact blank
  | many => simp [Run.flush, isSpace, unit]

/-- White space is followed by white space of its own in the result. -/
theorem collapseFrom_space {run : Run} (held : run ≠ .none) (blank : run.Blank) (text : JsString) :
    ∃ code rest, isSpace code = true ∧ collapseFrom run text = code :: rest := by
  have flushed {run : Run} (held : run ≠ .none) (blank : run.Blank) :
      ∃ code, isSpace code = true ∧ run.flush = [code] := by
    cases run with
    | none => exact absurd rfl held
    | one code => exact ⟨code, blank, rfl⟩
    | many => exact ⟨unit 32, by decide, rfl⟩
  induction text generalizing run with
  | nil =>
      obtain ⟨code, space, flush⟩ := flushed held blank
      exact ⟨code, [], space, flush⟩
  | cons first text ih =>
      rw [collapseFrom]
      split
      · rename_i space
        refine ih ?_ (Run.Blank.push space)
        cases run <;> simp [Run.push]
      · obtain ⟨code, space, flush⟩ := flushed held blank
        exact ⟨code, _, space, by rw [flush, List.singleton_append]⟩

/-! A text without white space stands in the collapsed text exactly where it stood before. -/

section

variable {w : JsString}

theorem not_prefix_of_space (visible : ∀ code ∈ w, isSpace code = false) (nonempty : w ≠ [])
    {code : CodeUnit} (space : isSpace code = true) (text : JsString) : ¬ w <+: code :: text := by
  obtain ⟨first, rest, rfl⟩ := List.exists_cons_of_ne_nil nonempty
  rw [List.cons_prefix_cons]
  rintro ⟨rfl, _⟩
  rw [visible first List.mem_cons_self] at space
  exact absurd space (by decide)

theorem prefix_collapse (visible : ∀ code ∈ w, isSpace code = false) (text : JsString) :
    w <+: collapse text ↔ w <+: text := by
  induction text generalizing w with
  | nil => rfl
  | cons first text ih =>
      by_cases nonempty : w = []
      · simp [nonempty]
      · rw [collapse, collapseFrom]
        split
        · rename_i space
          have held : Run.none.push first ≠ .none := by simp [Run.push]
          obtain ⟨code, rest, isBlank, equal⟩ :=
            collapseFrom_space held (Run.Blank.push space) text
          rw [equal]
          exact iff_of_false (not_prefix_of_space visible nonempty isBlank rest)
            (not_prefix_of_space visible nonempty space text)
        · obtain ⟨head, tail, rfl⟩ := List.exists_cons_of_ne_nil nonempty
          simp only [Run.flush, List.nil_append, List.cons_prefix_cons]
          exact and_congr_right fun _ => ih fun code member =>
            visible code (List.mem_cons_of_mem head member)

variable (visible : ∀ code ∈ w, isSpace code = false) (nonempty : w ≠ [])
include visible nonempty

theorem infix_space_cons {code : CodeUnit} (space : isSpace code = true) (text : JsString) :
    w <:+: code :: text ↔ w <:+: text := by
  rw [List.infix_cons_iff]
  exact or_iff_right (not_prefix_of_space visible nonempty space text)

theorem infix_space_append {spaces : JsString} (all : ∀ code ∈ spaces, isSpace code = true)
    (text : JsString) : w <:+: spaces ++ text ↔ w <:+: text := by
  induction spaces with
  | nil => rfl
  | cons code spaces ih =>
      rw [List.cons_append, infix_space_cons visible nonempty (all code List.mem_cons_self),
        ih fun other member => all other (List.mem_cons_of_mem code member)]

theorem infix_collapseFrom {run : Run} (blank : run.Blank) (text : JsString) :
    w <:+: collapseFrom run text ↔ w <:+: text := by
  induction text generalizing run with
  | nil =>
      rw [collapseFrom, ← List.append_nil run.flush,
        infix_space_append visible nonempty blank.flush]
  | cons first text ih =>
      rw [collapseFrom]
      split
      · rename_i space
        rw [ih (Run.Blank.push space), infix_space_cons visible nonempty space]
      · rename_i shown
        rw [infix_space_append visible nonempty blank.flush, List.infix_cons_iff,
          List.infix_cons_iff, ih (show Run.none.Blank from trivial)]
        refine or_congr_left ?_
        have here := prefix_collapse visible (first :: text)
        rwa [collapse, collapseFrom, if_neg shown] at here

theorem infix_dropSpace (text : JsString) : w <:+: text.dropWhile isSpace ↔ w <:+: text := by
  rw [← infix_space_append visible nonempty (fun code => List.mem_takeWhile_imp)
    (text.dropWhile isSpace), List.takeWhile_append_dropWhile]

end

theorem infix_trim {w : JsString} (visible : ∀ code ∈ w, isSpace code = false) (nonempty : w ≠ [])
    (text : JsString) : w <:+: trim text ↔ w <:+: text := by
  have mirrored : ∀ code ∈ w.reverse, isSpace code = false := by simpa using visible
  rw [trim, ← List.reverse_infix, List.reverse_reverse,
    infix_dropSpace mirrored (by simpa using nonempty), List.reverse_infix,
    infix_dropSpace visible nonempty]

/-! No white space is left to collapse or to trim. -/

/-- No two units in a row are white space. -/
def Spaced (text : JsString) : Prop :=
  text.IsChain fun first second => ¬ (isSpace first = true ∧ isSpace second = true)

theorem collapseFrom_spaced {run : Run} (blank : run.Blank) (text : JsString) :
    Spaced (collapseFrom run text) := by
  induction text generalizing run with
  | nil => cases run <;> simp [collapseFrom, Run.flush, Spaced]
  | cons first text ih =>
      rw [collapseFrom]
      split
      · rename_i space
        exact ih (Run.Blank.push space)
      · rename_i shown
        have rest : Spaced (first :: collapseFrom .none text) := by
          refine List.IsChain.cons (ih (show Run.none.Blank from trivial)) fun next _ => ?_
          exact fun both => shown both.1
        cases run with
        | none => exact rest
        | one code => exact List.IsChain.cons rest fun next _ => by simp_all
        | many => exact List.IsChain.cons rest fun next _ => by simp_all

theorem collapse_of_spaced {text : JsString} (spaced : Spaced text) :
    collapse text = text ∧ ∀ code, isSpace code = true → Spaced (code :: text) →
      collapseFrom (.one code) text = code :: text := by
  induction text with
  | nil => exact ⟨rfl, fun _ _ _ => rfl⟩
  | cons first text ih =>
      have later := ih spaced.tail
      refine ⟨?_, fun code space together => ?_⟩
      · rw [collapse, collapseFrom]
        split
        · rename_i space
          exact later.2 first space spaced
        · rw [Run.flush, List.nil_append]
          exact congrArg (List.cons first) later.1
      · have shown : ¬ isSpace first = true := fun both =>
          (List.isChain_cons_cons.mp together).1 ⟨space, both⟩
        rw [collapseFrom, if_neg shown, Run.flush, List.singleton_append]
        exact congrArg (fun rest => code :: first :: rest) later.1

theorem trim_within (text : JsString) : trim text <:+: text := by
  have front : text.dropWhile isSpace <:+: text := (List.dropWhile_suffix isSpace).isInfix
  refine List.IsInfix.trans ?_ front
  rw [trim, ← List.reverse_infix, List.reverse_reverse]
  exact (List.dropWhile_suffix isSpace).isInfix

theorem dropSpace_of_head {text : JsString} (shown : ∀ code ∈ text.head?, isSpace code = false) :
    text.dropWhile isSpace = text := by
  cases text with
  | nil => rfl
  | cons first text => exact List.dropWhile_cons_of_neg (by simp [shown first rfl])

theorem head_dropSpace (text : JsString) :
    ∀ code ∈ (text.dropWhile isSpace).head?, isSpace code = false := by
  intro code member
  have shown := List.head?_dropWhile_not isSpace text
  rwa [Option.mem_def.mp member] at shown

theorem trim_trim (text : JsString) : trim (trim text) = trim text := by
  generalize front : text.dropWhile isSpace = rest
  have trimmed : trim text = (rest.reverse.dropWhile isSpace).reverse := by rw [trim, front]
  have parts : trim text ++ (rest.reverse.takeWhile isSpace).reverse = rest := by
    rw [trimmed, ← List.reverse_append, List.takeWhile_append_dropWhile, List.reverse_reverse]
  have starts : (trim text).dropWhile isSpace = trim text := by
    refine dropSpace_of_head fun code member => ?_
    refine head_dropSpace text code ?_
    rw [front, ← parts]
    exact List.mem_head?_append_of_mem_head? member
  have ends : (trim text).reverse.dropWhile isSpace = (trim text).reverse := by
    rw [trimmed, List.reverse_reverse]
    exact dropSpace_of_head (head_dropSpace rest.reverse)
  rw [trim, starts, ends, List.reverse_reverse]

/-! `stripMentions` as a whole. -/

theorem Mention.visible {w : JsString} (mention : Mention w) :
    ∀ code ∈ w, isSpace code = false := by
  have checked (text : JsString) (shown : text.all (fun code => !isSpace code) = true) :
      ∀ code ∈ text, isSpace code = false := by
    simpa using shown
  cases mention with
  | everyone => exact checked _ (by decide)
  | here => exact checked _ (by decide)
  | member marked named numeric =>
      have digitsVisible : ∀ digit, isDigit digit = true → isSpace digit = false := by
        intro digit bounds
        simp only [isDigit, Bool.and_eq_true, decide_eq_true_eq] at bounds
        simp only [isSpace, Bool.or_eq_false_iff, Bool.and_eq_false_iff, decide_eq_false_iff_not,
          beq_eq_false_iff_ne]
        omega
      simp only [List.mem_cons, List.not_mem_nil, or_false] at marked
      intro code member
      simp only [List.mem_cons, List.mem_append, List.not_mem_nil, or_false] at member
      rcases member with rfl | rfl | inSigil | inDigits | rfl
      · decide
      · decide
      · rcases marked with rfl | rfl | rfl
        · simp at inSigil
        · rw [List.mem_singleton.mp inSigil]
          decide
        · rw [List.mem_singleton.mp inSigil]
          decide
      · exact digitsVisible code (numeric code inDigits)
      · decide

theorem contains_stripMentions (input : JsString) :
    Contains mentions (stripMentions input) ↔ Contains mentions (remove mentions input) := by
  refine exists_congr fun w => and_congr_right fun mention => ?_
  have shown := Mention.visible mention
  have nonempty := SolidCode.Code.ne_nil mention
  rw [stripMentions, infix_trim shown nonempty, collapse,
    infix_collapseFrom shown nonempty (show Run.none.Blank from trivial)]

theorem stripMentions_idem {input : JsString} (free : ¬ Contains mentions (stripMentions input)) :
    stripMentions (stripMentions input) = stripMentions input := by
  have spaced : Spaced (stripMentions input) :=
    List.IsChain.infix (collapseFrom_spaced (show Run.none.Blank from trivial) _) (trim_within _)
  rw [stripMentions, remove_of_free free, (collapse_of_spaced spaced).1, stripMentions, trim_trim]

/-! File names. -/

def isTerminator (code : CodeUnit) : Bool :=
  code == unit 10 || code == unit 13 || code == unit 0x2028 || code == unit 0x2029

def isSeparator (code : CodeUnit) : Bool := code == unit 92 || code == unit 47

/-- `[a-zA-Z0-9._-]` -/
def isSafe (code : CodeUnit) : Bool :=
  isLower code || isUpper code || isDigit code || code == unit 46 || code == unit 95 ||
    code == unit 45

/-- `replace(/^.*[\\/]/, '')`: up to the last separator of the first line. -/
def baseName (input : JsString) : JsString :=
  let line := input.takeWhile fun code => !isTerminator code
  input.drop (line.length - (line.reverse.takeWhile fun code => !isSeparator code).length)

def sanitizeFilename (input : JsString) : JsString :=
  let cleaned := ((baseName input).map fun code => if isSafe code then code else unit 95).dropWhile
    fun code => code == unit 46
  if cleaned.take 255 = [] then js "file" else cleaned.take 255

structure SafeName (name : JsString) : Prop where
  nonempty : name ≠ []
  short : name.length ≤ 255
  safe : ∀ code ∈ name, isSafe code = true
  undotted : name.head? ≠ some (unit 46)

theorem sanitizeFilename_safe (input : JsString) : SafeName (sanitizeFilename input) := by
  simp only [sanitizeFilename]
  generalize cleanedEq : ((baseName input).map fun code => if isSafe code then code else unit 95) =
    cleaned
  have cleanedSafe : ∀ code ∈ cleaned, isSafe code = true := by
    rw [← cleanedEq, List.forall_mem_map]
    intro code _
    split
    · assumption
    · decide
  generalize undottedEq : (cleaned.dropWhile fun code => code == unit 46) = undotted
  have undottedSafe : ∀ code ∈ undotted, isSafe code = true := by
    rw [← undottedEq]
    exact fun code member => cleanedSafe code ((List.dropWhile_sublist _).subset member)
  have head : undotted.head? ≠ some (unit 46) := by
    have stops := List.head?_dropWhile_not (fun code => code == unit 46) cleaned
    rw [undottedEq] at stops
    intro dot
    simp [dot] at stops
  split
  · exact ⟨by decide, by decide, List.all_eq_true.mp (by decide), by decide⟩
  · rename_i nonempty
    refine ⟨nonempty, List.length_take_le 255 undotted,
      fun code member => undottedSafe code (List.mem_of_mem_take member), ?_⟩
    rw [List.head?_take]
    simpa using head

/-! HTML. -/

/-- `replace(/<[^>]*>/g, '')`: a `<` without a `>` behind it starts no tag. -/
def dropTags : Bool → JsString → JsString
  | _, [] => []
  | true, code :: text => dropTags (code != unit 62) text
  | false, code :: text =>
      if code = unit 60 ∧ unit 62 ∈ text then dropTags true text else code :: dropTags false text

/-- `replace` of one unit, everywhere -/
def replaceUnit (code : CodeUnit) (replacement text : JsString) : JsString :=
  text.flatMap fun other => if other = code then replacement else [other]

def sanitizeHtml (input : JsString) : JsString :=
  replaceUnit (unit 62) (js "&gt;")
    (replaceUnit (unit 60) (js "&lt;") (replaceUnit (unit 38) (js "&amp;") (dropTags false input)))

theorem mem_replaceUnit {code other : CodeUnit} {replacement text : JsString}
    (member : other ∈ replaceUnit code replacement text) : other ∈ replacement ∨ (other ∈ text ∧ other ≠ code) := by
  obtain ⟨source, inText, written⟩ := List.mem_flatMap.mp member
  split at written
  · exact Or.inl written
  · rename_i apart
    rw [List.mem_singleton.mp written]
    exact Or.inr ⟨inText, apart⟩

theorem sanitizeHtml_no_brackets (input : JsString) :
    ∀ code ∈ sanitizeHtml input, code ≠ unit 60 ∧ code ≠ unit 62 := by
  have checked (text : JsString)
      (free : text.all (fun code => code != unit 60 && code != unit 62) = true) :
      ∀ code ∈ text, code ≠ unit 60 ∧ code ≠ unit 62 := by
    simpa using free
  intro code member
  rcases mem_replaceUnit member with greater | ⟨earlier, notGreater⟩
  · exact checked (js "&gt;") (by decide) code greater
  · rcases mem_replaceUnit earlier with less | ⟨_, notLess⟩
    · exact checked (js "&lt;") (by decide) code less
    · exact ⟨notLess, notGreater⟩

/-! The service as a whole. -/

theorem sanitizer_iff_unnested (input : JsString) :
    (¬ Contains mentions (stripMentions input) ∧
        stripMentions (stripMentions input) = stripMentions input ∧
        SafeName (sanitizeFilename input) ∧
        ∀ code ∈ sanitizeHtml input, code ≠ unit 60 ∧ code ≠ unit 62) ↔
      ¬ Nests mentions input := by
  rw [← contains_remove_iff, ← contains_stripMentions]
  constructor
  · exact fun all => all.1
  · intro free
    exact ⟨free, stripMentions_idem free, sanitizeFilename_safe input, sanitizeHtml_no_brackets input⟩

theorem mention_reappears :
    stripMentions (js "<@<@1>2>") = js "<@2>" ∧ Mention (js "<@2>") ∧
      stripMentions (stripMentions (js "<@<@1>2>")) = [] := by
  have shape : js "<@2>" = unit 60 :: unit 64 :: ([] ++ (js "2" ++ [unit 62])) := by decide +kernel
  refine ⟨by decide +kernel, ?_, by decide +kernel⟩
  rw [shape]
  exact .member (by simp) (by decide) (List.all_eq_true.mp (by decide))

end Sanitizer
