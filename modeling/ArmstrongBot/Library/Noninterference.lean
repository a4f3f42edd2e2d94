import ArmstrongBot.Library.StepMachine

/-! Runs seen from one domain. A view keeps of a state what belongs to the domain, and a purged
run keeps the actions of the domain: where others' steps leave the view alone and its own steps
can be taken in the view, the purged run from the view ends in the view of the final state. -/

namespace StepMachine

variable {σ α : Type*} (step : σ → α → Option σ) (view : σ → σ) (owned : σ → α → Bool)

/-- The actions of a run that belong to the domain. -/
def purged : σ → List α → List α
  | _, [] => []
  | state, action :: rest =>
      match step state action with
      | none => []
      | some next =>
          if owned state action then action :: purged next rest else purged next rest

variable {step view owned}

theorem run_purged {invariant : σ → Prop} {condition : σ → α → Prop}
    (keeps : ∀ state action next, invariant state → condition state action →
      step state action = some next → invariant next)
    (unseen : ∀ state action next, invariant state → condition state action →
      owned state action = false → step state action = some next → view next = view state)
    (consistent : ∀ state action next, invariant state → condition state action →
      owned state action = true → step state action = some next →
        step (view state) action = some (view next))
    {state final : σ} (initial : invariant state) {actions : List α}
    (guarded : Guarded step condition state actions)
    (reached : run step state actions = some final) :
    run step (view state) (purged step owned state actions) = some (view final) := by
  induction actions generalizing state with
  | nil =>
      obtain rfl : state = final := by simpa [run] using reached
      rfl
  | cons action rest ih =>
      obtain ⟨next, taken, later⟩ := (run_cons step).mp reached
      obtain ⟨met, guardedLater⟩ := guarded next taken
      have ends := ih (keeps state action next initial met taken) guardedLater later
      simp only [purged, taken]
      cases isOwned : owned state action with
      | true =>
          have same := consistent state action next initial met isOwned taken
          exact (run_cons step).mpr ⟨view next, same, ends⟩
      | false =>
          rw [← unseen state action next initial met isOwned taken]
          exact ends

/-- Two guarded runs that look the same from the domain end in the same view. -/
theorem view_eq_of_purged {invariant : σ → Prop} {condition : σ → α → Prop}
    (keeps : ∀ state action next, invariant state → condition state action →
      step state action = some next → invariant next)
    (unseen : ∀ state action next, invariant state → condition state action →
      owned state action = false → step state action = some next → view next = view state)
    (consistent : ∀ state action next, invariant state → condition state action →
      owned state action = true → step state action = some next →
        step (view state) action = some (view next))
    {first second firstFinal secondFinal : σ} (firstInitial : invariant first)
    (secondInitial : invariant second) (sameStart : view first = view second)
    {firstActions secondActions : List α}
    (firstGuarded : Guarded step condition first firstActions)
    (secondGuarded : Guarded step condition second secondActions)
    (firstReached : run step first firstActions = some firstFinal)
    (secondReached : run step second secondActions = some secondFinal)
    (samePurged : purged step owned first firstActions = purged step owned second secondActions) :
    view firstFinal = view secondFinal := by
  have left := run_purged keeps unseen consistent firstInitial firstGuarded firstReached
  have right := run_purged keeps unseen consistent secondInitial secondGuarded secondReached
  rw [sameStart, samePurged, right] at left
  exact (Option.some.inj left).symm

end StepMachine
