import Mathlib.Data.List.Infix
import Mathlib.Order.Lattice

/-! Glob patterns: a star for any text, a question mark for any letter, brackets for one letter of
a set, a backslash before a sign that stands for itself. -/

namespace Glob

/-- The letters that are signs. -/
structure Signs (α : Type*) where
  star : α
  question : α
  opening : α
  closing : α
  caret : α
  dash : α
  backslash : α
  distinct : [star, question, opening, closing, caret, dash, backslash].Nodup

variable {α : Type*}

/-- What one letter of a text may be. -/
inductive Class (α : Type*)
  | any
  | exactly (letter : α)
  | oneOf (negated : Bool) (ranges : List (α × α))

inductive Token (α : Type*)
  | star
  | single (letters : Class α)

/-- Where the reader of a pattern stands. Inside of brackets it has the ranges so far, and maybe a
letter that a dash would make the first of a range. -/
inductive Mode (α : Type*)
  | outside
  | escaped
  | opened
  | inside (negated : Bool) (ranges : List (α × α))
  | insideEscaped (negated : Bool) (ranges : List (α × α))
  | pending (negated : Bool) (ranges : List (α × α)) (letter : α)
  | ranging (negated : Bool) (ranges : List (α × α)) (first : α)

variable [LinearOrder α]

def Class.admits : Class α → α → Bool
  | any, _ => true
  | exactly letter, other => letter = other
  | oneOf negated ranges, letter =>
      negated != ranges.any fun range =>
        min range.1 range.2 ≤ letter && letter ≤ max range.1 range.2

variable (signs : Signs α)

def readInside (negated : Bool) (ranges : List (α × α)) (letter : α) :
    Option (Token α) × Mode α :=
  if letter = signs.backslash then (none, .insideEscaped negated ranges)
  else if letter = signs.closing then (some (.single (.oneOf negated ranges)), .outside)
  else (none, .pending negated ranges letter)

/-- One letter of a pattern. -/
def read : Mode α → α → Option (Token α) × Mode α
  | .outside, letter =>
      if letter = signs.star then (some .star, .outside)
      else if letter = signs.question then (some (.single .any), .outside)
      else if letter = signs.opening then (none, .opened)
      else if letter = signs.backslash then (none, .escaped)
      else (some (.single (.exactly letter)), .outside)
  | .escaped, letter => (some (.single (.exactly letter)), .outside)
  | .opened, letter =>
      if letter = signs.caret then (none, .inside true []) else readInside signs false [] letter
  | .inside negated ranges, letter => readInside signs negated ranges letter
  | .insideEscaped negated ranges, letter => (none, .inside negated (ranges ++ [(letter, letter)]))
  | .pending negated ranges first, letter =>
      if letter = signs.dash then (none, .ranging negated ranges first)
      else readInside signs negated (ranges ++ [(first, first)]) letter
  | .ranging negated ranges first, letter => (none, .inside negated (ranges ++ [(first, letter)]))

/-- Brackets that are not closed end with the pattern, and a backslash that ends it stands for
itself. -/
def finish : Mode α → Option (Token α)
  | .outside => none
  | .escaped => some (.single (.exactly signs.backslash))
  | .opened => some (.single (.oneOf false []))
  | .inside negated ranges => some (.single (.oneOf negated ranges))
  | .insideEscaped negated ranges =>
      some (.single (.oneOf negated (ranges ++ [(signs.backslash, signs.backslash)])))
  | .pending negated ranges first => some (.single (.oneOf negated (ranges ++ [(first, first)])))
  | .ranging negated ranges first =>
      some (.single (.oneOf negated (ranges ++ [(first, first), (signs.dash, signs.dash)])))

def tokens : Mode α → List α → List (Token α)
  | mode, [] => (finish signs mode).toList
  | mode, letter :: rest =>
      (read signs mode letter).1.toList ++ tokens (read signs mode letter).2 rest

/-- The text is the tokens, one after the other. -/
def matchesAll : List (Token α) → List α → Bool
  | [], text => text.isEmpty
  | .star :: rest, text => text.tails.any fun left => matchesAll rest left
  | .single letters :: rest, text =>
      match text with
      | [] => false
      | letter :: left => letters.admits letter && matchesAll rest left

def isMatch (pattern text : List α) : Bool := matchesAll (tokens signs .outside pattern) text

/-- The letters that stand for more than themselves outside of brackets. -/
def Signs.special : List α := [signs.star, signs.question, signs.opening, signs.backslash]

variable {signs} {rest : List (Token α)} {text : List α}

theorem tokens_plain {front : List α} (plain : ∀ letter ∈ front, letter ∉ signs.special)
    (back : List α) :
    tokens signs .outside (front ++ back) =
      (front.map fun letter => .single (.exactly letter)) ++ tokens signs .outside back := by
  induction front with
  | nil => rfl
  | cons letter front ih =>
      have isPlain := plain letter List.mem_cons_self
      simp only [Signs.special, List.mem_cons, List.not_mem_nil, or_false, not_or] at isPlain
      obtain ⟨notStar, notQuestion, notOpening, notBackslash⟩ := isPlain
      rw [List.cons_append, tokens, read, if_neg notStar, if_neg notQuestion, if_neg notOpening,
        if_neg notBackslash, ih fun other member => plain other (List.mem_cons_of_mem _ member)]
      rfl

theorem matchesAll_plain_iff (front text : List α) :
    matchesAll ((front.map fun letter => .single (.exactly letter)) ++ rest) text = true ↔
      ∃ back, text = front ++ back ∧ matchesAll rest back = true := by
  induction front generalizing text with
  | nil => simp
  | cons letter front ih =>
      cases text with
      | nil => simp [matchesAll]
      | cons first text =>
          rw [List.map_cons, List.cons_append, matchesAll, Bool.and_eq_true, ih]
          constructor
          · rintro ⟨same, back, rfl, matching⟩
            exact ⟨back, congrArg (· :: (front ++ back)) (of_decide_eq_true same).symm, matching⟩
          · rintro ⟨back, split, matching⟩
            obtain ⟨rfl, rfl⟩ := List.cons.inj split
            exact ⟨decide_eq_true rfl, back, rfl, matching⟩

theorem matchesAll_plain (front back : List α) :
    matchesAll ((front.map fun letter => .single (.exactly letter)) ++ rest) (front ++ back) =
      matchesAll rest back := by
  rw [Bool.eq_iff_iff, matchesAll_plain_iff]
  simp

theorem matchesAll_star (rest : List (Token α)) (text : List α) :
    matchesAll (.star :: rest) text = true ↔
      ∃ left, left <:+ text ∧ matchesAll rest left = true := by
  simp [matchesAll]

/-- How many letters the shortest text of these tokens has. -/
def size : List (Token α) → Nat
  | [] => 0
  | .star :: rest => size rest
  | .single _ :: rest => size rest + 1

/-- A star can stand for nothing: with any text comes one in which every star does. -/
theorem exists_shortest (matching : matchesAll rest text = true) :
    ∃ short, matchesAll rest short = true ∧ short.length = size rest := by
  induction rest generalizing text with
  | nil => exact ⟨[], rfl, rfl⟩
  | cons token rest ih =>
      cases token with
      | star =>
          obtain ⟨left, _, matches_⟩ := (matchesAll_star rest text).mp matching
          obtain ⟨short, isMatch, sized⟩ := ih matches_
          exact ⟨short, (matchesAll_star rest short).mpr ⟨short, List.suffix_refl _, isMatch⟩, sized⟩
      | single letters =>
          cases text with
          | nil => cases matching
          | cons letter left =>
              obtain ⟨admitted, matches_⟩ := Bool.and_eq_true_iff.mp matching
              obtain ⟨short, isMatch, sized⟩ := ih matches_
              refine ⟨letter :: short, ?_, by rw [List.length_cons, sized, size]⟩
              rw [matchesAll, admitted, isMatch]
              rfl

/-- Whether a letter of the text is still to come of the letters read. -/
def owed : Mode α → Nat
  | .outside => 0
  | _ => 1

omit [LinearOrder α] in
theorem size_append (front back : List (Token α)) :
    size (front ++ back) = size front + size back := by
  induction front with
  | nil => simp [size]
  | cons token front ih =>
      cases token with
      | star => exact ih
      | single letters =>
          rw [List.cons_append, size, size, ih]
          omega

omit [LinearOrder α] in
theorem size_finish (mode : Mode α) : size (finish signs mode).toList = owed mode := by
  cases mode <;> rfl

theorem readInside_size (negated : Bool) (ranges : List (α × α)) (letter : α) :
    size (readInside signs negated ranges letter).1.toList +
      owed (readInside signs negated ranges letter).2 ≤ 1 := by
  unfold readInside
  split
  · exact Nat.le_refl _
  · split <;> exact Nat.le_refl _

variable (signs) in
/-- A letter of a pattern asks for one letter of the text at most. -/
theorem read_size (mode : Mode α) (letter : α) :
    size (read signs mode letter).1.toList + owed (read signs mode letter).2 ≤ 1 := by
  cases mode with
  | outside =>
      rw [read]
      split
      · exact Nat.zero_le _
      · repeat' split
        all_goals exact Nat.le_refl _
  | escaped => exact Nat.le_refl _
  | opened =>
      rw [read]
      split
      · exact Nat.le_refl _
      · exact readInside_size false [] letter
  | inside negated ranges => exact readInside_size negated ranges letter
  | insideEscaped negated ranges => exact Nat.le_refl _
  | pending negated ranges first =>
      rw [read]
      split
      · exact Nat.le_refl _
      · exact readInside_size negated _ letter
  | ranging negated ranges first => exact Nat.le_refl _

theorem read_star : read signs .outside signs.star = (some .star, .outside) := by
  rw [read, if_pos rfl]

variable (signs) in
/-- With a star at its end a pattern asks for no more letters than it had before. -/
theorem size_tokens_le (mode : Mode α) (letters : List α) :
    size (tokens signs mode (letters ++ [signs.star])) ≤ max (owed mode) letters.length := by
  induction letters generalizing mode with
  | nil =>
      have readOne := read_size signs mode signs.star
      rw [List.nil_append, tokens, tokens, size_append, size_finish]
      cases mode with
      | outside =>
          rw [read_star]
          exact Nat.le_refl _
      | _ => exact readOne
  | cons letter letters ih =>
      have readOne := read_size signs mode letter
      have later := ih (read signs mode letter).2
      rw [List.cons_append, tokens, size_append, List.length_cons]
      omega

theorem exists_first_special {start : List α}
    (isSpecial : ¬ ∀ letter ∈ start, letter ∉ signs.special) :
    ∃ front sign back, start = front ++ sign :: back ∧
      (∀ letter ∈ front, letter ∉ signs.special) ∧ sign ∈ signs.special := by
  induction start with
  | nil => exact absurd (by simp) isSpecial
  | cons letter start ih =>
      by_cases first : letter ∈ signs.special
      · exact ⟨[], letter, start, rfl, by simp, first⟩
      · have later : ¬ ∀ letter ∈ start, letter ∉ signs.special := by
          intro plain
          exact isSpecial (List.forall_mem_cons.mpr ⟨first, plain⟩)
        obtain ⟨front, sign, back, rfl, plain, isSign⟩ := ih later
        exact ⟨letter :: front, sign, back, rfl, List.forall_mem_cons.mpr ⟨first, plain⟩, isSign⟩

theorem read_bracket {sign : α} (isSign : sign = signs.opening ∨ sign = signs.backslash) :
    (read signs .outside sign).1 = none := by
  have distinct := signs.distinct
  simp only [List.nodup_cons, List.mem_cons, List.not_mem_nil, or_false, not_or] at distinct
  obtain ⟨⟨_, notOpening, _, _, _, notBackslash⟩, ⟨isOpening, _, _, _, isBackslash⟩,
    ⟨_, _, _, apart⟩, _⟩ := distinct
  rcases isSign with rfl | rfl
  · rw [read, if_neg (Ne.symm notOpening), if_neg (Ne.symm isOpening), if_pos rfl]
  · rw [read, if_neg (Ne.symm notBackslash), if_neg (Ne.symm isBackslash), if_neg (Ne.symm apart),
      if_pos rfl]

/-- A bracket or a backslash takes the star after it for its own, which it is not itself. -/
theorem not_matches_last {sign : α} (isSign : sign = signs.opening ∨ sign = signs.backslash) :
    matchesAll (tokens signs .outside [sign, signs.star]) [sign] = false := by
  have distinct := signs.distinct
  simp only [List.nodup_cons, List.mem_cons, List.not_mem_nil, or_false, not_or] at distinct
  obtain ⟨⟨_, notOpening, notClosing, notCaret, _, notBackslash⟩, ⟨isOpening, _, _, _, isBackslash⟩,
    ⟨_, _, _, apart⟩, _⟩ := distinct
  rcases isSign with rfl | rfl
  · have differs : ¬ (signs.star ≤ signs.opening ∧ signs.opening ≤ signs.star) :=
      fun both => notOpening (le_antisymm both.1 both.2)
    simpa [tokens, read, readInside, finish, matchesAll, Class.admits, Ne.symm notOpening,
      Ne.symm isOpening, notClosing, notCaret, notBackslash] using differs
  · simp [tokens, read, finish, matchesAll, Class.admits, Ne.symm notBackslash,
      Ne.symm isBackslash, Ne.symm apart, notBackslash]

/-- After a sign other than the question mark either the pattern does not match itself or it
matches a text that is shorter. -/
theorem exists_shorter {sign : α} {back : List α}
    (isSign : sign = signs.star ∨ sign = signs.opening ∨ sign = signs.backslash)
    (matching : matchesAll (tokens signs .outside (sign :: (back ++ [signs.star])))
      (sign :: back) = true) :
    ∃ short, matchesAll (tokens signs .outside (sign :: (back ++ [signs.star]))) short = true ∧
      short.length < (sign :: back).length := by
  obtain ⟨short, isMatch, sized⟩ := exists_shortest matching
  refine ⟨short, isMatch, ?_⟩
  rw [sized, tokens, size_append, List.length_cons]
  have later := size_tokens_le signs (read signs .outside sign).2 back
  have readOne := read_size signs .outside sign
  rcases isSign with rfl | isSign
  · rw [read_star] at later ⊢
    simp only [size, owed, Option.toList_some] at later ⊢
    omega
  · have filled : back ≠ [] := by
      rintro rfl
      rw [List.nil_append, not_matches_last isSign] at matching
      cases matching
    have long := List.length_pos_of_ne_nil filled
    have silent := read_bracket isSign
    rw [silent]
    simp only [size, Option.toList_none]
    omega

/-- A star after a pattern matches just the texts that begin with the pattern where no letter of
it stands for more than itself, and only there. -/
theorem isMatch_star_iff (start : List α) :
    (∀ text, isMatch signs (start ++ [signs.star]) text = start.isPrefixOf text) ↔
      ∀ letter ∈ start, letter ∉ signs.special := by
  constructor
  · intro exact_
    by_contra isSpecial
    obtain ⟨front, sign, back, rfl, plain, isSign⟩ := exists_first_special isSpecial
    have after : ∀ text, matchesAll (tokens signs .outside (sign :: (back ++ [signs.star]))) text =
        (sign :: back).isPrefixOf text := by
      intro text
      have asked := exact_ (front ++ text)
      rw [isMatch, List.append_assoc, tokens_plain plain, matchesAll_plain, List.cons_append]
        at asked
      rw [asked, Bool.eq_iff_iff, List.isPrefixOf_iff_prefix, List.isPrefixOf_iff_prefix,
        List.prefix_append_right_inj]
    have itself : matchesAll (tokens signs .outside (sign :: (back ++ [signs.star]))) (sign :: back)
        = true := by
      rw [after, List.isPrefixOf_iff_prefix]
    simp only [Signs.special, List.mem_cons, List.not_mem_nil, or_false] at isSign
    rcases isSign with isStar | rfl | isBracket
    · obtain ⟨short, isMatch, shorter⟩ := exists_shorter (.inl isStar) itself
      rw [after, List.isPrefixOf_iff_prefix] at isMatch
      exact absurd isMatch.length_le (Nat.not_le_of_lt shorter)
    · -- Another letter in the place of the question mark is matched as well.
      have apart : signs.question ≠ signs.star := by
        have distinct := signs.distinct
        simp only [List.nodup_cons, List.mem_cons, not_or] at distinct
        exact Ne.symm distinct.1.1
      have isAny : tokens signs .outside (signs.question :: (back ++ [signs.star])) =
          .single .any :: tokens signs .outside (back ++ [signs.star]) := by
        rw [tokens, read, if_neg apart, if_pos rfl]
        rfl
      rw [isAny] at itself
      have isMatch := after (signs.star :: back)
      rw [isAny, show matchesAll _ (signs.star :: back) = true from itself] at isMatch
      have isPrefix := List.isPrefixOf_iff_prefix.mp isMatch.symm
      exact apart (List.cons_prefix_cons.mp isPrefix).1
    · obtain ⟨short, isMatch, shorter⟩ := exists_shorter (.inr isBracket) itself
      rw [after, List.isPrefixOf_iff_prefix] at isMatch
      exact absurd isMatch.length_le (Nat.not_le_of_lt shorter)
  · intro plain text
    have anything : ∀ text, matchesAll (tokens signs .outside [signs.star]) text = true := by
      intro text
      rw [tokens, read_star]
      exact (matchesAll_star [] text).mpr ⟨[], List.nil_suffix, rfl⟩
    rw [isMatch, tokens_plain plain, Bool.eq_iff_iff, List.isPrefixOf_iff_prefix,
      matchesAll_plain_iff]
    constructor
    · rintro ⟨back, rfl, _⟩
      exact List.prefix_append start back
    · rintro ⟨back, rfl⟩
      exact ⟨back, rfl, anything back⟩

end Glob
