/-!
# Steps that change a state

The parser and the evaluator are made of steps that change a state and may stop
early.  This module has what holds of all such steps: how a sequence of two
steps runs, and how a relation between the states before and after is kept by
sequences.
-/

namespace Bhasha.Step

variable {ε σ α β : Type}

/-! ## Sequences -/

/-- A sequence goes on after a first step that gives a result. -/
theorem bind_ok
    {step : EStateM ε σ α} {next : α → EStateM ε σ β}
    {state after : σ} {value : α}
    (first : step state = .ok value after) :
    (step >>= next) state = next value after := by
  show EStateM.bind step next state = next value after
  rw [EStateM.bind, first]

/-- A sequence stops with its first step. -/
theorem bind_error
    {step : EStateM ε σ α} {next : α → EStateM ε σ β}
    {state after : σ} {reason : ε}
    (first : step state = .error reason after) :
    (step >>= next) state = .error reason after := by
  show EStateM.bind step next state = .error reason after
  rw [EStateM.bind, first]

/-- A sequence that gives a result has a first step that gives one. -/
theorem bind_eq_ok
    {step : EStateM ε σ α} {next : α → EStateM ε σ β}
    {state after : σ} {result : β}
    (whole : (step >>= next) state = .ok result after) :
    ∃ value middle,
      step state = .ok value middle ∧ next value middle = .ok result after := by
  cases first : step state with
  | ok value middle =>
      rw [bind_ok first] at whole
      exact ⟨value, middle, rfl, whole⟩
  | error reason middle =>
      rw [bind_error first] at whole
      cases whole

/-! ## What a step leaves -/

/-- The state that a step leaves, whether it gives a result or stops. -/
def final (step : EStateM ε σ α) (state : σ) : σ :=
  match step state with
  | .ok _ after => after
  | .error _ after => after

theorem final_of_ok
    {step : EStateM ε σ α} {state after : σ} {value : α}
    (outcome : step state = .ok value after) :
    final step state = after := by
  rw [final, outcome]

theorem final_of_error
    {step : EStateM ε σ α} {state after : σ} {reason : ε}
    (outcome : step state = .error reason after) :
    final step state = after := by
  rw [final, outcome]

/-- The states before and after a step are related, whatever its outcome. -/
def Within (relation : σ → σ → Prop) (step : EStateM ε σ α) : Prop :=
  ∀ state, relation state (final step state)

/-- A transitive relation that holds of two steps holds of their sequence. -/
theorem Within.bind
    {relation : σ → σ → Prop}
    {step : EStateM ε σ α} {next : α → EStateM ε σ β}
    (transitive : ∀ {first second third : σ},
      relation first second → relation second third → relation first third)
    (first : Within relation step)
    (second : ∀ value, Within relation (next value)) :
    Within relation (step >>= next) := by
  intro state
  have start := first state
  cases outcome : step state with
  | ok value middle =>
      rw [final_of_ok outcome] at start
      have whole := transitive start (second value middle)
      rwa [final, bind_ok outcome]
  | error reason middle =>
      rw [final_of_error outcome] at start
      rwa [final_of_error (bind_error outcome)]

end Bhasha.Step
