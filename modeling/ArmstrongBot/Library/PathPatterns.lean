import Mathlib.Data.List.Basic
import Mathlib.Order.Basic

/-! Patterns of paths: every path, one path alone, or all the paths that go on from one. -/

inductive PathPattern (σ : Type*)
  | all
  | exact (path : List σ) (nonempty : path ≠ [])
  | below (path : List σ) (nonempty : path ≠ [])
  deriving DecidableEq

namespace PathPattern

variable {σ : Type*}

/-- The path goes on from the other. -/
def GoesOn (path longer : List σ) : Prop := ∃ rest, rest ≠ [] ∧ longer = path ++ rest

def Matches : PathPattern σ → List σ → Prop
  | all, _ => True
  | exact path _, asked => asked = path
  | below path _, asked => GoesOn path asked

/-- The comparison by form: a pattern covers itself and what its path goes on to. -/
def Covers : PathPattern σ → PathPattern σ → Prop
  | all, _ => True
  | exact path _, exact other _ => path = other
  | exact _ _, _ => False
  | below path _, exact other _ => GoesOn path other
  | below path _, below other _ => path <+: other
  | below _ _, all => False

/-- The length of the path, a half more where the pattern leaves the rest open; doubled. -/
def rank : PathPattern σ → Nat
  | all => 0
  | exact path _ => 2 * path.length
  | below path _ => 2 * path.length + 1

theorem GoesOn.isPrefix {path longer : List σ} (goesOn : GoesOn path longer) : path <+: longer := by
  obtain ⟨rest, _, rfl⟩ := goesOn
  exact List.prefix_append path rest

theorem GoesOn.length_lt {path longer : List σ} (goesOn : GoesOn path longer) :
    path.length < longer.length := by
  obtain ⟨rest, nonempty, rfl⟩ := goesOn
  have positive := List.length_pos_iff.mpr nonempty
  rw [List.length_append]
  omega

theorem goesOn_of_isPrefix {path longer : List σ} (isPrefix_ : path <+: longer)
    (lengths : path.length < longer.length) : GoesOn path longer := by
  obtain ⟨rest, rfl⟩ := isPrefix_
  refine ⟨rest, ?_, rfl⟩
  rintro rfl
  simp at lengths

/-- A prefix of a path that goes on is not longer than the path. -/
theorem prefix_goesOn {path middle longer : List σ} (isPrefix_ : path <+: middle)
    (goesOn : GoesOn middle longer) : GoesOn path longer := by
  have lengths := isPrefix_.length_le
  have later := goesOn.length_lt
  exact goesOn_of_isPrefix (isPrefix_.trans goesOn.isPrefix) (by omega)

theorem covers_exact_iff {held : PathPattern σ} {path : List σ} {nonempty : path ≠ []} :
    held.Covers (.exact path nonempty) ↔ held.Matches path := by
  cases held with
  | all => exact Iff.rfl
  | exact own _ => exact eq_comm
  | below own _ => exact Iff.rfl

theorem Covers.matches {held required : PathPattern σ} (covers : held.Covers required)
    {path : List σ} (matches_ : required.Matches path) : held.Matches path := by
  cases held with
  | all => trivial
  | exact own _ =>
      cases required with
      | all => exact covers.elim
      | exact other _ => exact matches_.trans covers.symm
      | below other _ => exact covers.elim
  | below own _ =>
      cases required with
      | all => exact covers.elim
      | exact other _ =>
          have same : path = other := matches_
          rw [same]
          exact covers
      | below other _ => exact prefix_goesOn covers matches_

/-- Paths that tell a pattern from all those that do not cover it. -/
def samples (segment : σ) : PathPattern σ → List (List σ)
  | all => [[segment], [segment, segment]]
  | exact path _ => [path]
  | below path _ => [path ++ [segment], path ++ [segment, segment]]

theorem matches_samples (segment : σ) (pattern : PathPattern σ) :
    ∀ path ∈ samples segment pattern, pattern.Matches path := by
  intro path member
  cases pattern with
  | all => trivial
  | exact own _ => exact List.mem_singleton.mp member
  | below own _ =>
      simp only [samples, List.mem_cons, List.not_mem_nil, or_false] at member
      rcases member with rfl | rfl
      · exact ⟨[segment], by simp, rfl⟩
      · exact ⟨[segment, segment], by simp, rfl⟩

theorem covers_of_samples (segment : σ) {held required : PathPattern σ}
    (all_ : ∀ path ∈ samples segment required, held.Matches path) : held.Covers required := by
  cases required with
  | all =>
      have one := all_ [segment] (by simp [samples])
      have two := all_ [segment, segment] (by simp [samples])
      cases held with
      | all => trivial
      | exact own _ =>
          have same : [segment] = [segment, segment] := one.trans two.symm
          simp at same
      | below own nonempty =>
          have shorter := one.length_lt
          have positive := List.length_pos_iff.mpr nonempty
          simp only [List.length_singleton] at shorter
          omega
  | exact other _ =>
      have own := all_ other (by simp [samples])
      cases held with
      | all => trivial
      | exact path _ => exact own.symm
      | below path _ => exact own
  | below other _ =>
      have one := all_ (other ++ [segment]) (by simp [samples])
      have two := all_ (other ++ [segment, segment]) (by simp [samples])
      cases held with
      | all => trivial
      | exact own _ =>
          have same := congrArg List.length (one.trans two.symm)
          simp at same
      | below own _ =>
          have shorter := one.length_lt
          rw [List.length_append, List.length_singleton] at shorter
          exact List.prefix_of_prefix_length_le one.isPrefix (List.prefix_append other [segment])
            (by omega)

/-- One pattern covers another if and only if it matches what the other matches, of any paths the
samples of the other are among. -/
theorem covers_iff_matches (segment : σ) {held required : PathPattern σ} {known : List σ → Prop}
    (samples_ : ∀ path ∈ samples segment required, known path) :
    held.Covers required ↔ ∀ path, known path → required.Matches path → held.Matches path := by
  constructor
  · exact fun covers path _ matches_ => covers.matches matches_
  · intro subset
    refine covers_of_samples segment fun path member => ?_
    exact subset path (samples_ path member) (matches_samples segment required path member)

theorem covers_refl (pattern : PathPattern σ) : pattern.Covers pattern := by
  cases pattern with
  | all => trivial
  | exact path _ => rfl
  | below path _ => exact List.prefix_refl path

theorem Covers.trans {first second third : PathPattern σ} (covers : first.Covers second)
    (later : second.Covers third) : first.Covers third := by
  cases first with
  | all => trivial
  | exact path _ =>
      cases second with
      | all => exact covers.elim
      | exact other _ =>
          obtain rfl : path = other := covers
          exact later
      | below other _ => exact covers.elim
  | below path _ =>
      cases second with
      | all => exact covers.elim
      | exact other _ =>
          cases third with
          | all => exact later.elim
          | exact last _ =>
              obtain rfl : other = last := later
              exact covers
          | below last _ => exact later.elim
      | below other _ =>
          cases third with
          | all => exact later.elim
          | exact last _ => exact prefix_goesOn covers later
          | below last _ => exact List.IsPrefix.trans covers later

/-- What a pattern covers besides itself is more specific. -/
theorem Covers.rank_lt {held required : PathPattern σ} (covers : held.Covers required)
    (apart : held ≠ required) : held.rank < required.rank := by
  cases held with
  | all =>
      cases required with
      | all => exact absurd rfl apart
      | exact path nonempty =>
          have positive := List.length_pos_iff.mpr nonempty
          simp only [rank]
          omega
      | below path _ => exact Nat.succ_pos _
  | exact path _ =>
      cases required with
      | all => exact covers.elim
      | exact other _ =>
          obtain rfl : path = other := covers
          exact absurd rfl apart
      | below other _ => exact covers.elim
  | below path _ =>
      cases required with
      | all => exact covers.elim
      | exact other _ =>
          have lengths := GoesOn.length_lt covers
          simp only [rank]
          omega
      | below other _ =>
          have lengths := List.IsPrefix.length_le covers
          rcases Nat.lt_or_eq_of_le lengths with shorter | same
          · simp only [rank]
            omega
          · obtain rfl := List.IsPrefix.eq_of_length covers same
            exact absurd rfl apart

theorem Covers.antisymm {first second : PathPattern σ} (covers : first.Covers second)
    (back : second.Covers first) : first = second := by
  by_contra apart
  have up := covers.rank_lt apart
  have down := back.rank_lt (Ne.symm apart)
  omega

/-- Of two patterns that cover a third, one covers the other. -/
theorem Covers.comparable {first second required : PathPattern σ} (covers : first.Covers required)
    (other : second.Covers required) : first.Covers second ∨ second.Covers first := by
  have chain {one two whole : List σ} (isOne : one <+: whole) (isTwo : two <+: whole) :
      one <+: two ∨ two <+: one := by
    rcases Nat.le_total one.length two.length with shorter | longer
    · exact .inl (List.prefix_of_prefix_length_le isOne isTwo shorter)
    · exact .inr (List.prefix_of_prefix_length_le isTwo isOne longer)
  cases first with
  | all => exact .inl trivial
  | exact path _ =>
      cases required with
      | all => exact covers.elim
      | exact asked _ =>
          obtain rfl : path = asked := covers
          exact .inr other
      | below asked _ => exact covers.elim
  | below path _ =>
      cases second with
      | all => exact .inr trivial
      | exact own _ =>
          cases required with
          | all => exact other.elim
          | exact asked _ =>
              obtain rfl : own = asked := other
              exact .inl covers
          | below asked _ => exact other.elim
      | below own _ =>
          cases required with
          | all => exact covers.elim
          | exact asked _ => exact chain (GoesOn.isPrefix covers) (GoesOn.isPrefix other)
          | below asked _ => exact chain covers other

theorem eq_of_rank_eq {first second required : PathPattern σ} (covers : first.Covers required)
    (other : second.Covers required) (sameRank : first.rank = second.rank) : first = second := by
  by_contra apart
  rcases covers.comparable other with up | down
  · have lower := up.rank_lt apart
    omega
  · have lower := down.rank_lt (Ne.symm apart)
    omega

end PathPattern
