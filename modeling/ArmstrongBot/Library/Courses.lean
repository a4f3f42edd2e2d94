import Mathlib.Data.List.Basic

/-! Programs of awaited steps that may fail: the steps that have taken place, and the error by which
the program has ended. -/

namespace Courses

variable {α ε : Type*}

/-- A step that is reported as failed may have taken place all the same. -/
inductive Outcome (ε : Type*)
  | works
  | fails (tookPlace : Bool) (error : ε)

def Outcome.error : Outcome ε → Option ε
  | .works => none
  | .fails _ error => some error

structure Course (α ε : Type*) where
  steps : List α
  error : Option ε

def nothing : Course α ε := { steps := [], error := none }

def raise (error : ε) : Course α ε := { steps := [], error := some error }

def await (outcome : Outcome ε) (step : α) : Course α ε :=
  match outcome with
  | .works => { steps := [step], error := none }
  | .fails tookPlace error => { steps := if tookPlace then [step] else [], error := some error }

namespace Course

def andThen (first second : Course α ε) : Course α ε :=
  match first.error with
  | none => { steps := first.steps ++ second.steps, error := second.error }
  | some _ => first

def catching (first : Course α ε) (handler : ε → Course α ε) : Course α ε :=
  match first.error with
  | none => first
  | some error =>
      { steps := first.steps ++ (handler error).steps, error := (handler error).error }

def ignoring (course : Course α ε) : Course α ε := { course with error := none }

end Course

@[simp] theorem await_error (outcome : Outcome ε) (step : α) :
    (await outcome step).error = outcome.error := by
  cases outcome <;> rfl

theorem mem_await {outcome : Outcome ε} {step other : α}
    (member : other ∈ (await outcome step).steps) : other = step := by
  cases outcome with
  | works => exact List.mem_singleton.mp member
  | fails tookPlace error =>
      cases tookPlace with
      | true => exact List.mem_singleton.mp member
      | false => cases member

theorem andThen_of_none {first second : Course α ε} (works : first.error = none) :
    first.andThen second = { steps := first.steps ++ second.steps, error := second.error } := by
  rw [Course.andThen, works]

theorem andThen_of_some {first second : Course α ε} {error : ε} (fails : first.error = some error) :
    first.andThen second = first := by
  rw [Course.andThen, fails]

theorem andThen_error_eq_none {first second : Course α ε} :
    (first.andThen second).error = none ↔ first.error = none ∧ second.error = none := by
  unfold Course.andThen
  split
  · rename_i works
    simp [works]
  · rename_i fails
    simp [fails]

theorem mem_andThen {first second : Course α ε} {step : α}
    (member : step ∈ (first.andThen second).steps) :
    step ∈ first.steps ∨ step ∈ second.steps := by
  unfold Course.andThen at member
  split at member
  · exact List.mem_append.mp member
  · exact .inl member

theorem catching_of_none {first : Course α ε} {handler : ε → Course α ε}
    (works : first.error = none) : first.catching handler = first := by
  rw [Course.catching, works]

theorem catching_of_some {first : Course α ε} {handler : ε → Course α ε} {error : ε}
    (fails : first.error = some error) :
    first.catching handler =
      { steps := first.steps ++ (handler error).steps, error := (handler error).error } := by
  rw [Course.catching, fails]

theorem mem_andThen_left {first : Course α ε} (second : Course α ε) {step : α}
    (member : step ∈ first.steps) : step ∈ (first.andThen second).steps := by
  unfold Course.andThen
  split
  · exact List.mem_append_left _ member
  · exact member

theorem mem_catching_left {first : Course α ε} (handler : ε → Course α ε) {step : α}
    (member : step ∈ first.steps) : step ∈ (first.catching handler).steps := by
  unfold Course.catching
  split
  · exact member
  · exact List.mem_append_left _ member

/-- Attempts one after the other, as many as are left at most, until one ends without an error. -/
def retrying (attempt : Nat → Course α ε) : Nat → Nat → List α
  | _, 0 => []
  | made, left + 1 =>
      (attempt made).steps ++
        if (attempt made).error.isSome then retrying attempt (made + 1) left else []

section Retrying

variable {attempt : Nat → Course α ε}

theorem forall_mem_retrying {holds : α → Prop} {made left : Nat}
    (each : ∀ index, made ≤ index → index < made + left →
      ∀ step ∈ (attempt index).steps, holds step) :
    ∀ step ∈ retrying attempt made left, holds step := by
  induction left generalizing made with
  | zero => simp [retrying]
  | succ left ih =>
      intro step member
      rcases List.mem_append.mp member with now | later
      · exact each made (Nat.le_refl _) (by omega) step now
      · split at later
        · refine ih (fun index lower upper => ?_) step later
          exact each index (by omega) (by omega)
        · cases later

/-- An attempt with a certain step is made, or an earlier one with such a step is the last. -/
theorem exists_mem_retrying {holds : α → Prop} {made left index : Nat} (lower : made ≤ index)
    (upper : index < made + left) (occurs : ∃ step ∈ (attempt index).steps, holds step)
    (goesOn : ∀ earlier, made ≤ earlier → earlier < index → (attempt earlier).error = none →
      ∃ step ∈ (attempt earlier).steps, holds step) :
    ∃ step ∈ retrying attempt made left, holds step := by
  induction left generalizing made with
  | zero => omega
  | succ left ih =>
      rcases Nat.eq_or_lt_of_le lower with rfl | later
      · obtain ⟨step, member, isStep⟩ := occurs
        exact ⟨step, List.mem_append_left _ member, isStep⟩
      · cases ends : (attempt made).error with
        | none =>
            obtain ⟨step, member, isStep⟩ := goesOn made (Nat.le_refl _) later ends
            exact ⟨step, List.mem_append_left _ member, isStep⟩
        | some error =>
            obtain ⟨step, member, isStep⟩ := ih later (by omega) fun earlier lower upper =>
              goesOn earlier (by omega) upper
            refine ⟨step, List.mem_append_right _ ?_, isStep⟩
            rwa [ends, Option.isSome_some, if_pos rfl]

end Retrying

end Courses
