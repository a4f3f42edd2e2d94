import Mathlib.Data.List.Infix

/-! Removing the words of a solid code from a text in one pass from the left. Words of such a code
never overlap, so the pass removes every word there is; a word can remain only where others have
been written into it. -/

namespace SolidCode

structure Code (α : Type*) where
  word : List α → Prop
  /-- The length of the word that a text starts with. -/
  find : List α → Option Nat
  find_iff : ∀ text length, find text = some length ↔
    length ≤ text.length ∧ word (text.take length)
  long : ∀ w, word w → 2 ≤ w.length
  overlap : ∀ front shared rest, word (front ++ shared) → word (shared ++ rest) → shared ≠ [] →
    front = [] ∧ rest = []
  inside : ∀ front w rest, word w → word (front ++ w ++ rest) → front = [] ∧ rest = []

variable {α : Type*} {code : Code α}

theorem Code.ne_nil {w : List α} (word : code.word w) : w ≠ [] := by
  rintro rfl
  exact absurd (code.long [] word) (by simp)

theorem Code.find_word {w : List α} (word : code.word w) (rest : List α) :
    code.find (w ++ rest) = some w.length := by
  rw [code.find_iff, List.take_left' rfl, List.length_append]
  exact ⟨by omega, word⟩

theorem Code.find_some {text : List α} {length : Nat} (found : code.find text = some length) :
    ∃ w rest, text = w ++ rest ∧ code.word w ∧ w.length = length := by
  obtain ⟨bound, word⟩ := (code.find_iff text length).mp found
  exact ⟨text.take length, text.drop length, (List.take_append_drop length text).symm, word,
    List.length_take_of_le bound⟩

theorem Code.find_none {text : List α} : code.find text = none ↔
    ∀ w rest, text = w ++ rest → ¬ code.word w := by
  constructor
  · rintro nothing w rest rfl word
    rw [Code.find_word word] at nothing
    simp at nothing
  · intro free
    cases found : code.find text with
    | none => rfl
    | some length =>
        obtain ⟨w, rest, equal, word, _⟩ := Code.find_some found
        exact absurd word (free w rest equal)

/-- A shorter text starts with no other words. -/
theorem Code.find_none_left {text rest : List α} (nothing : code.find (text ++ rest) = none) :
    code.find text = none := by
  rw [Code.find_none] at nothing ⊢
  rintro w tail rfl
  exact nothing w (tail ++ rest) (List.append_assoc ..)

/-- The pass, with the number of units that the last word found still covers. -/
def removeFrom (code : Code α) : Nat → List α → List α
  | _, [] => []
  | covered + 1, _ :: text => removeFrom code covered text
  | 0, first :: text =>
      match code.find (first :: text) with
      | some length => removeFrom code (length - 1) text
      | none => first :: removeFrom code 0 text

def remove (code : Code α) (text : List α) : List α := removeFrom code 0 text

theorem removeFrom_drop (covered : Nat) (text : List α) :
    removeFrom code covered text = remove code (text.drop covered) := by
  induction covered generalizing text with
  | zero => rfl
  | succ covered ih =>
      cases text with
      | nil => rfl
      | cons first text => exact ih text

@[simp] theorem remove_nil : remove code ([] : List α) = [] := rfl

theorem remove_cons {first : α} {text : List α} (nothing : code.find (first :: text) = none) :
    remove code (first :: text) = first :: remove code text := by
  simp only [remove, removeFrom, nothing]

theorem remove_word {w : List α} (word : code.word w) (rest : List α) :
    remove code (w ++ rest) = remove code rest := by
  obtain ⟨first, tail, rfl⟩ := List.exists_cons_of_ne_nil (Code.ne_nil word)
  have found := Code.find_word word rest
  rw [List.cons_append] at found ⊢
  rw [remove, removeFrom]
  simp only [found, List.length_cons, Nat.add_sub_cancel]
  rw [removeFrom_drop, List.drop_left' rfl]

/-- The pass stands before the end, before a word, or before a unit that it keeps. -/
theorem pass_induct {motive : List α → Prop} (code : Code α) (nil : motive [])
    (found : ∀ w rest, code.word w → motive rest → motive (w ++ rest))
    (kept : ∀ first text, code.find (first :: text) = none → motive text → motive (first :: text)) :
    ∀ text, motive text := by
  intro text
  generalize size : text.length = length
  induction length using Nat.strongRecOn generalizing text with
  | ind length ih =>
      cases text with
      | nil => exact nil
      | cons first text =>
          cases start : code.find (first :: text) with
          | none => exact kept first text start (ih text.length (by simp [← size]) text rfl)
          | some span =>
              obtain ⟨w, rest, equal, word, -⟩ := Code.find_some start
              have long := code.long w word
              rw [equal, List.length_append] at size
              rw [equal]
              exact found w rest word (ih rest.length (by omega) rest rfl)

/-! A word is removed wherever it stands. -/

/-- A word that starts in front of a part and ends behind that start would overlap it. -/
theorem find_none_append {text part : List α} {first : α}
    (nothing : code.find (first :: text) = none)
    (apart : ∀ shared rest w, part = shared ++ rest → shared ≠ [] → w = first :: text ++ shared →
      ¬ code.word w) :
    code.find (first :: text ++ part) = none := by
  rw [Code.find_none] at nothing ⊢
  intro w rest equal word
  rcases List.append_eq_append_iff.mp equal with ⟨shared, longer, partEq⟩ | ⟨tail, shorter, _⟩
  · by_cases empty : shared = []
    · exact nothing w [] (by rw [longer, empty, List.append_nil, List.append_nil]) word
    · exact apart shared rest w partEq empty longer word
  · exact nothing w tail shorter word

theorem remove_append_word (before : List α) {w : List α} (word : code.word w) (after : List α) :
    remove code (before ++ (w ++ after)) = remove code before ++ remove code after := by
  induction before using pass_induct code with
  | nil => exact remove_word word after
  | found other rest otherWord ih =>
      rw [List.append_assoc, remove_word otherWord, remove_word otherWord, ih]
  | kept first text nothing ih =>
      have alone : code.find (first :: text ++ (w ++ after)) = none := by
        refine find_none_append nothing fun shared rest other parts nonempty equal otherWord => ?_
        subst equal
        rcases List.append_eq_append_iff.mp parts with ⟨tail, longer, _⟩ | ⟨tail, shorter, _⟩
        · rw [longer, ← List.append_assoc] at otherWord
          exact absurd (code.inside _ _ _ word otherWord).1 (List.cons_ne_nil first text)
        · rw [shorter] at word
          exact absurd (code.overlap _ _ _ otherWord word nonempty).1 (List.cons_ne_nil first text)
      rw [List.cons_append] at alone ⊢
      rw [remove_cons alone, remove_cons nothing, ih, List.cons_append]

theorem remove_eq_self {text : List α}
    (free : ∀ before w after, text = before ++ (w ++ after) → ¬ code.word w) :
    remove code text = text := by
  induction text with
  | nil => rfl
  | cons first text ih =>
      have nothing : code.find (first :: text) = none :=
        Code.find_none.mpr fun w rest equal => free [] w rest equal
      rw [remove_cons nothing, ih fun before w after equal => free (first :: before) w after ?_]
      rw [equal, List.cons_append]

/-- The beginning of a word stays, whatever is in front of it. -/
theorem remove_append_front (before : List α) {front rest : List α} (word : code.word (front ++ rest))
    (cut : rest ≠ []) : remove code (before ++ front) = remove code before ++ front := by
  induction before using pass_induct code with
  | nil =>
      show remove code front = front
      refine remove_eq_self fun ahead w after equal other => ?_
      rw [equal, ← List.append_assoc ahead, List.append_assoc _ after] at word
      exact cut (List.append_eq_nil_iff.mp (code.inside _ _ _ other word).2).2
  | found other tail otherWord ih =>
      rw [List.append_assoc, remove_word otherWord, remove_word otherWord, ih]
  | kept first text nothing ih =>
      have alone : code.find (first :: text ++ front) = none := by
        refine find_none_append nothing fun shared tail other parts nonempty equal otherWord => ?_
        subst equal
        rw [parts, List.append_assoc] at word
        exact absurd (code.overlap _ _ _ otherWord word nonempty).1 (List.cons_ne_nil first text)
      rw [List.cons_append] at alone ⊢
      rw [remove_cons alone, remove_cons nothing, ih, List.cons_append]

/-- The end of a word stays, whatever is behind it. -/
theorem remove_back_append (front : List α) {back : List α} (word : code.word (front ++ back))
    (cut : front ≠ []) (after : List α) :
    remove code (back ++ after) = back ++ remove code after := by
  induction back generalizing front with
  | nil => rfl
  | cons first back ih =>
      have nothing : code.find (first :: back ++ after) = none := by
        rw [Code.find_none]
        intro w rest equal other
        rcases List.append_eq_append_iff.mp equal with ⟨tail, longer, _⟩ | ⟨tail, shorter, _⟩
        · rw [longer] at other
          exact cut (code.overlap _ _ _ word other (List.cons_ne_nil first back)).1
        · rw [shorter, ← List.append_assoc] at word
          exact cut (code.inside _ _ _ other word).1
      rw [List.cons_append] at nothing ⊢
      rw [remove_cons nothing, ih (front ++ [first]) (by simpa using word) (by simp)]
      rfl

/-! A word that others have been written into. -/

def Contains (code : Code α) (text : List α) : Prop := ∃ w, code.word w ∧ w <:+: text

/-- A text in which words have been written between the units of another. -/
inductive Spread (code : Code α) : List α → List α → Prop
  | nil : Spread code [] []
  | keep (unit : α) {text units : List α} (rest : Spread code text units) :
      Spread code (unit :: text) (unit :: units)
  | word {w text units : List α} (word : code.word w) (rest : Spread code text units) :
      Spread code (w ++ text) units

/-- The text has a word with other words between its first and its last unit. -/
def Nests (code : Code α) (text : List α) : Prop :=
  ∃ before first middle last after inner,
    text = before ++ first :: (middle ++ last :: after) ∧
      code.word (first :: (inner ++ [last])) ∧ Spread code middle inner ∧ middle ≠ inner

theorem spread_remove (text : List α) : Spread code text (remove code text) := by
  induction text using pass_induct code with
  | nil => exact .nil
  | found w rest word ih =>
      rw [remove_word word]
      exact .word word ih
  | kept first text nothing ih =>
      rw [remove_cons nothing]
      exact .keep first ih

/-- Each unit that is left stood somewhere, and no word began there. -/
theorem remove_split {text units rest : List α} {unit : α}
    (left : remove code text = units ++ unit :: rest) :
    ∃ before after, text = before ++ unit :: after ∧ remove code before = units ∧
      remove code after = rest ∧ code.find (unit :: after) = none := by
  induction text using pass_induct code generalizing units with
  | nil => simp at left
  | found w tail word ih =>
      rw [remove_word word] at left
      obtain ⟨before, after, rfl, removed, remains, nothing⟩ := ih left
      exact ⟨w ++ before, after, by rw [List.append_assoc], by rw [remove_word word, removed],
        remains, nothing⟩
  | kept first text nothing ih =>
      rw [remove_cons nothing] at left
      cases units with
      | nil =>
          obtain ⟨rfl, rfl⟩ := List.cons.inj left
          exact ⟨[], text, rfl, rfl, rfl, nothing⟩
      | cons other units =>
          obtain ⟨rfl, later⟩ := List.cons.inj left
          obtain ⟨before, after, rfl, removed, remains, stays⟩ := ih later
          refine ⟨first :: before, after, rfl, ?_, remains, stays⟩
          rw [← List.cons_append] at nothing
          rw [remove_cons (Code.find_none_left nothing), removed]

theorem Contains.nests {text : List α} (contains : Contains code (remove code text)) :
    Nests code text := by
  obtain ⟨w, word, front, back, left⟩ := contains
  obtain ⟨first, tail, rfl⟩ := List.exists_cons_of_ne_nil (Code.ne_nil word)
  have nonempty : tail ≠ [] := by
    rintro rfl
    exact absurd (code.long _ word) (by simp)
  obtain ⟨inner, last, rfl⟩ := (List.eq_nil_or_concat' tail).resolve_left nonempty
  have opening : remove code text = front ++ first :: (inner ++ last :: back) := by
    rw [← left]
    simp
  obtain ⟨before, rest, rfl, -, remains, nothing⟩ := remove_split opening
  obtain ⟨middle, after, rfl, removed, -, -⟩ := remove_split remains
  refine ⟨before, first, middle, last, after, inner, rfl, word, ?_, ?_⟩
  · rw [← removed]
    exact spread_remove middle
  · rintro rfl
    -- with nothing in between, the pass would have found the word
    exact Code.find_none.mp nothing _ after (by simp) word

/-- Behind the first of the words written into a word, the pass leaves the end of that word. -/
theorem remove_spread_back {middle inner : List α} (spread : Spread code middle inner) {last : α}
    (after : List α) : ∀ front kept : List α,
      code.word (front ++ (kept ++ (inner ++ [last]))) → front ≠ [] →
      remove code (kept ++ (middle ++ last :: after)) = kept ++ (inner ++ last :: remove code after) := by
  induction spread with
  | nil =>
      intro front kept word cut
      have whole : code.word (front ++ (kept ++ [last])) := word
      simpa using remove_back_append front whole cut after
  | keep unit rest ih =>
      intro front kept word cut
      simpa using ih front (kept ++ [unit]) (by simpa using word) cut
  | @word w text units other rest ih =>
      intro front kept word cut
      have stays : remove code kept = kept := by
        refine remove_eq_self fun ahead v behind equal inner => ?_
        rw [equal] at word
        have enclosed : code.word (front ++ ahead ++ v ++ (behind ++ (units ++ [last]))) := by
          simpa using word
        exact absurd (code.inside _ _ _ inner enclosed).2 (by simp)
      have rejoined := ih (front ++ kept) [] (by simpa using word) (by simp [cut])
      rw [List.append_assoc, remove_append_word kept other, stays, ← List.nil_append (text ++ _),
        rejoined, List.nil_append]

theorem remove_spread {middle inner : List α} (spread : Spread code middle inner) {last : α}
    (before after : List α) (written : middle ≠ inner) : ∀ kept : List α,
      code.word (kept ++ (inner ++ [last])) → kept ≠ [] →
      remove code (before ++ (kept ++ (middle ++ last :: after))) =
        remove code before ++ (kept ++ (inner ++ last :: remove code after)) := by
  induction spread with
  | nil => exact absurd rfl written
  | keep unit rest ih =>
      intro kept word cut
      have apart := fun same => written (congrArg (List.cons unit) same)
      simpa using ih apart (kept ++ [unit]) (by simpa using word) (by simp)
  | @word w text units other rest ih =>
      intro kept word cut
      have rejoined := remove_spread_back rest after kept [] (by simpa using word) cut
      rw [List.append_assoc, ← List.append_assoc before, remove_append_word (before ++ kept) other,
        remove_append_front before word (by simp), ← List.nil_append (text ++ _), rejoined]
      simp

theorem Nests.contains {text : List α} (nests : Nests code text) :
    Contains code (remove code text) := by
  obtain ⟨before, first, middle, last, after, inner, rfl, word, spread, written⟩ := nests
  refine ⟨_, word, remove code before, remove code after, ?_⟩
  have left := remove_spread spread before after written [first] (by simpa using word) (by simp)
  simpa using left.symm

/-- The pass leaves a word in the text exactly when the text has one with others written into it. -/
theorem contains_remove_iff {text : List α} : Contains code (remove code text) ↔ Nests code text :=
  ⟨Contains.nests, Nests.contains⟩

theorem remove_of_free {text : List α} (free : ¬ Contains code text) : remove code text = text :=
  remove_eq_self fun before w after equal word =>
    free ⟨w, word, before, after, by rw [equal, List.append_assoc]⟩

end SolidCode
