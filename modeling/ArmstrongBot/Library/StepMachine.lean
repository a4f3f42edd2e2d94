import Mathlib.Logic.Basic

/-! Runs of a partial step function. An action that is not enabled in a state has no
successor, so a run is a list of actions each of which is enabled where it is taken. -/

namespace StepMachine

variable {σ α : Type*} (step : σ → α → Option σ)

def run : σ → List α → Option σ
  | state, [] => some state
  | state, action :: rest => (step state action).bind fun next => run next rest

/-- The predicate holds in every state the actions lead through, the first included. -/
def Always (predicate : σ → Prop) : σ → List α → Prop
  | state, [] => predicate state
  | state, action :: rest =>
      predicate state ∧ ∀ next, step state action = some next → Always predicate next rest

/-- Every step that is taken meets the condition, which reads the state before the step. -/
def Guarded (condition : σ → α → Prop) : σ → List α → Prop
  | _, [] => True
  | state, action :: rest => ∀ next, step state action = some next →
      condition state action ∧ Guarded condition next rest

instance instDecidableGuarded (condition : σ → α → Prop)
    [∀ state action, Decidable (condition state action)] :
    ∀ state actions, Decidable (Guarded step condition state actions)
  | _, [] => .isTrue trivial
  | state, action :: rest =>
      match taken : step state action with
      | none => .isTrue fun next found => by
          rw [taken] at found
          exact absurd found (by simp)
      | some next =>
          have := instDecidableGuarded condition next rest
          decidable_of_iff (condition state action ∧ Guarded step condition next rest) (by
            simp [Guarded, taken])

theorem run_cons {state : σ} {action : α} {rest : List α} {final : σ} :
    run step state (action :: rest) = some final ↔
      ∃ next, step state action = some next ∧ run step next rest = some final := by
  simp [run, Option.bind_eq_some_iff]

theorem Always.head {predicate : σ → Prop} {state : σ} {actions : List α}
    (always : Always step predicate state actions) : predicate state := by
  cases actions with
  | nil => exact always
  | cons action rest => exact always.1

theorem Always.mono {first second : σ → Prop} (implies : ∀ state, first state → second state)
    {state : σ} {actions : List α} (always : Always step first state actions) :
    Always step second state actions := by
  induction actions generalizing state with
  | nil => exact implies state always
  | cons action rest ih =>
      exact ⟨implies state always.1, fun next taken => ih (always.2 next taken)⟩

theorem Always.reached {predicate : σ → Prop} {state final : σ} {front back : List α}
    (always : Always step predicate state (front ++ back))
    (reached : run step state front = some final) : predicate final := by
  induction front generalizing state with
  | nil =>
      obtain rfl : state = final := by simpa [run] using reached
      exact always.head
  | cons action rest ih =>
      obtain ⟨next, taken, later⟩ := (run_cons step).mp reached
      exact ih (always.2 next taken) later

/-- A run whose last state fails a necessary check refutes a predicate of every state. -/
theorem not_always {predicate : σ → Prop} (check : σ → Bool)
    (necessary : ∀ state, predicate state → check state = true) {state : σ} {actions : List α}
    (failed : (run step state actions).map check = some false) :
    ¬ Always step predicate state actions := by
  intro always
  obtain ⟨final, reached, fails⟩ := Option.map_eq_some_iff.mp failed
  rw [← List.append_nil actions] at always
  have holds := necessary final (always.reached step reached)
  rw [fails] at holds
  exact absurd holds (by decide)

/-- An invariant that every step keeps holds where a run ends. -/
theorem invariant_run {invariant : σ → Prop}
    (keeps : ∀ state action next, invariant state → step state action = some next → invariant next)
    {state final : σ} {actions : List α} (ran : run step state actions = some final)
    (initial : invariant state) : invariant final := by
  induction actions generalizing state with
  | nil =>
      obtain rfl : state = final := by simpa [run] using ran
      exact initial
  | cons action rest ih =>
      obtain ⟨next, taken, later⟩ := (run_cons step).mp ran
      exact ih later (keeps state action next initial taken)

/-- The induction over a run: an invariant that every step meeting the condition keeps holds
in every state of a run all of whose steps meet it. -/
theorem always_of_guarded {invariant : σ → Prop} {condition : σ → α → Prop}
    (keeps : ∀ state action next, invariant state → condition state action →
      step state action = some next → invariant next)
    {state : σ} (initial : invariant state) {actions : List α}
    (guarded : Guarded step condition state actions) :
    Always step invariant state actions := by
  induction actions generalizing state with
  | nil => exact initial
  | cons action rest ih =>
      refine ⟨initial, ?_⟩
      intro next taken
      obtain ⟨met, later⟩ := guarded next taken
      exact ih (keeps state action next initial met taken) later

/-- A condition that decides, step by step, whether the predicate survives is exact for whole
runs: it holds at every step exactly when the predicate holds in every state. -/
theorem always_iff_guarded {invariant predicate : σ → Prop} {condition : σ → α → Prop}
    (sound : ∀ state, invariant state → predicate state)
    (keeps : ∀ state action next, invariant state → condition state action →
      step state action = some next → invariant next)
    (exact_ : ∀ state action next, invariant state → step state action = some next →
      predicate next → condition state action)
    {state : σ} (initial : invariant state) (actions : List α) :
    Always step predicate state actions ↔ Guarded step condition state actions := by
  constructor
  · intro always
    induction actions generalizing state with
    | nil => trivial
    | cons action rest ih =>
        intro next taken
        have later := always.2 next taken
        have met := exact_ state action next initial taken later.head
        exact ⟨met, ih (keeps state action next initial met taken) later⟩
  · intro guarded
    exact (always_of_guarded step keeps initial guarded).mono step sound

/-- The condition of a guarded run holds where its last step is taken. -/
theorem Guarded.last {condition : σ → α → Prop} {state before next : σ} {front : List α} {action : α}
    (guarded : Guarded step condition state (front ++ [action]))
    (reached : run step state front = some before) (taken : step before action = some next) :
    condition before action := by
  induction front generalizing state with
  | nil =>
      obtain rfl : state = before := by simpa [run] using reached
      exact (guarded next taken).1
  | cons first rest ih =>
      obtain ⟨middle, firstTaken, later⟩ := (run_cons step).mp reached
      exact ih (guarded middle firstTaken).2 later

theorem guarded_of_forall {condition : σ → α → Prop} {actions : List α}
    (met : ∀ action ∈ actions, ∀ state, condition state action) (state : σ) :
    Guarded step condition state actions := by
  induction actions generalizing state with
  | nil => trivial
  | cons action rest ih =>
      intro next _
      refine ⟨met action List.mem_cons_self state, ih ?_ next⟩
      exact fun other member => met other (List.mem_cons_of_mem _ member)

/-- Two conditions that agree wherever an invariant of every run holds guard the same runs. -/
theorem guarded_congr {invariant : σ → Prop} {first second : σ → α → Prop}
    (keeps : ∀ state action next, invariant state → step state action = some next → invariant next)
    (agree : ∀ state action next, invariant state → step state action = some next →
      (first state action ↔ second state action))
    {state : σ} (initial : invariant state) (actions : List α) :
    Guarded step first state actions ↔ Guarded step second state actions := by
  induction actions generalizing state with
  | nil => exact Iff.rfl
  | cons action rest ih =>
      refine forall_congr' fun next => forall_congr' fun taken => ?_
      rw [agree state action next initial taken, ih (keeps state action next initial taken)]

/-- Allowed actions lead from the state to the goal. -/
def Reaches (allowed : α → Prop) (goal : σ → Prop) (state : σ) : Prop :=
  ∃ actions, (∀ action ∈ actions, allowed action) ∧
    ∃ final, run step state actions = some final ∧ goal final

variable {step} in
theorem Reaches.here {allowed : α → Prop} {goal : σ → Prop} {state : σ} (isGoal : goal state) :
    Reaches step allowed goal state :=
  ⟨[], by simp, state, rfl, isGoal⟩

variable {step} in
theorem Reaches.cons {allowed : α → Prop} {goal : σ → Prop} {state next : σ} {action : α}
    (isAllowed : allowed action) (taken : step state action = some next)
    (later : Reaches step allowed goal next) : Reaches step allowed goal state := by
  obtain ⟨actions, areAllowed, final, reached, isGoal⟩ := later
  refine ⟨action :: actions, ?_, final, (run_cons step).mpr ⟨next, taken, reached⟩, isGoal⟩
  intro other member
  rcases List.mem_cons.mp member with rfl | later
  · exact isAllowed
  · exact areAllowed other later

variable {step} in
theorem Reaches.trans {allowed : α → Prop} {middle goal : σ → Prop} {state : σ}
    (reaches : Reaches step allowed middle state)
    (goesOn : ∀ between, middle between → Reaches step allowed goal between) :
    Reaches step allowed goal state := by
  obtain ⟨actions, areAllowed, between, reached, isMiddle⟩ := reaches
  induction actions generalizing state with
  | nil =>
      obtain rfl : state = between := by simpa [run] using reached
      exact goesOn state isMiddle
  | cons action rest ih =>
      obtain ⟨next, taken, later⟩ := (run_cons step).mp reached
      exact .cons (areAllowed action List.mem_cons_self) taken
        (ih (fun other member => areAllowed other (List.mem_cons_of_mem _ member)) later)

/-- A measure that an allowed action can lower in every state short of the goal. -/
theorem reaches_of_decreasing {allowed : α → Prop} {goal : σ → Prop} (waits : σ → Prop)
    (measure : σ → Nat)
    (progress : ∀ state, waits state → goal state ∨ ∃ action next, allowed action ∧
      step state action = some next ∧ waits next ∧ measure next < measure state)
    {state : σ} (waiting : waits state) : Reaches step allowed goal state := by
  induction left : measure state using Nat.strongRecOn generalizing state with
  | ind bound ih =>
      rcases progress state waiting with isGoal | ⟨action, next, isAllowed, taken, waits, lower⟩
      · exact .here isGoal
      · rw [left] at lower
        exact (ih (measure next) lower waits rfl).cons isAllowed taken

/-- What the allowed actions keep also holds at the goal. -/
theorem Reaches.keeps {allowed : α → Prop} {goal : σ → Prop} {state : σ}
    (reaches : Reaches step allowed goal state) (invariant : σ → Prop)
    (keeps : ∀ state action next, invariant state → allowed action →
      step state action = some next → invariant next)
    (initial : invariant state) :
    Reaches step allowed (fun final => goal final ∧ invariant final) state := by
  obtain ⟨actions, areAllowed, final, reached, isGoal⟩ := reaches
  refine ⟨actions, areAllowed, final, reached, isGoal, ?_⟩
  induction actions generalizing state with
  | nil =>
      obtain rfl := Option.some.inj reached
      exact initial
  | cons action rest ih =>
      obtain ⟨next, taken, later⟩ := (run_cons step).mp reached
      exact ih (keeps state action next initial (areAllowed action List.mem_cons_self) taken)
        (fun other member => areAllowed other (List.mem_cons_of_mem _ member)) later

/-- Two machines whose steps keep their states related take the same runs. -/
theorem run_rel {τ : Type*} {other : τ → α → Option τ} {relation : σ → τ → Prop}
    (steps : ∀ state mirror action, relation state mirror →
      Option.Rel relation (step state action) (other mirror action))
    {state : σ} {mirror : τ} (related : relation state mirror) (actions : List α) :
    Option.Rel relation (run step state actions) (run other mirror actions) := by
  induction actions generalizing state mirror with
  | nil => exact .some related
  | cons action rest ih =>
      have taken := steps state mirror action related
      rw [run, run]
      generalize step state action = left at taken
      generalize other mirror action = right at taken
      cases taken with
      | some next => exact ih next
      | none => exact .none

end StepMachine
