import Mathlib.Tactic

set_option autoImplicit false

namespace Transition

universe u v w

variable {σ : Type u} {α : Type v} {ε : Type w}

-- A fallible step over labels. A label whose step fails is rolled back, so
-- only committed labels move the state.
def attempt (step : σ → α → Except ε σ) (state : σ) (label : α) : σ :=
  match step state label with
  | .ok next => next
  | .error _ => state

def attempts (step : σ → α → Except ε σ) (state : σ) (labels : List α) : σ :=
  labels.foldl (attempt step) state

inductive Reachable (step : σ → α → Except ε σ) (init : σ → Prop) : σ → Prop where
  | start (state : σ) (starts : init state) : Reachable step init state
  | next (state after : σ) (label : α) (previous : Reachable step init state)
      (taken : step state label = .ok after) : Reachable step init after

-- A run of committed steps, each of which its starting state allows.
inductive Path (step : σ → α → Except ε σ) (allowed : σ → α → Prop) (start : σ) : σ → Prop where
  | here : Path step allowed start start
  | next (state after : σ) (label : α) (previous : Path step allowed start state) (permitted : allowed state label)
      (taken : step state label = .ok after) : Path step allowed start after

-- Every step of a strict run must commit.
def run (step : σ → α → Except ε σ) : σ → List α → Except ε σ
  | state, [] => .ok state
  | state, label :: rest =>
      match step state label with
      | .ok next => run step next rest
      | .error fault => .error fault

variable {step : σ → α → Except ε σ} {init : σ → Prop}

section

variable {start : σ} (holds : σ → Prop) (state : σ) (labels : List α) {allowed : σ → α → Prop}

theorem reachable_invariant (base : ∀ state, init state → holds state)
    (keeps : ∀ state label after, holds state → step state label = .ok after → holds after) (state : σ)
    (reached : Reachable step init state) : holds state := by
  induction reached with
  | start state starts => exact base state starts
  | next state after label _ taken ih => exact keeps state label after ih taken

theorem path_invariant
    (keeps : ∀ state label after, holds state → allowed state label → step state label = .ok after → holds after)
    (start state : σ) (base : holds start) (ran : Path step allowed start state) : holds state := by
  induction ran with
  | here => exact base
  | next state after label _ permitted taken ih => exact keeps state label after ih permitted taken

theorem path_related (related : σ → σ → Prop) (same : ∀ state, related state state)
    (composed : ∀ a b c, related a b → related b c → related a c)
    (moves : ∀ state label after, allowed state label → step state label = .ok after → related state after) (start state : σ)
    (ran : Path step allowed start state) : related start state := by
  induction ran with
  | here => exact same start
  | next state after label _ permitted taken ih =>
      exact composed start state after ih (moves state label after permitted taken)

theorem reachable_attempt (label : α) (reached : Reachable step init state) :
    Reachable step init (attempt step state label) := by
  unfold attempt
  cases taken : step state label with
  | ok next => exact .next state next label reached taken
  | error fault => exact reached

theorem reachable_attempts (reached : Reachable step init state) :
    Reachable step init (attempts step state labels) := by
  induction labels generalizing state with
  | nil => exact reached
  | cons label rest ih => exact ih _ (reachable_attempt state label reached)

theorem attempt_failed (label : α) (fault : ε) (failed : step state label = .error fault) :
    attempt step state label = state := by
  simp only [attempt, failed]

theorem path_attempts {state : σ} (free : ∀ label ∈ labels, ∀ state, allowed state label)
    (previous : Path step allowed start state) :
    Path step allowed start (attempts step state labels) := by
  induction labels generalizing state with
  | nil => exact previous
  | cons label rest ih =>
      refine ih (fun other member => free other (List.mem_cons_of_mem _ member)) ?_
      unfold attempt
      cases taken : step state label with
      | ok next => exact .next state next label previous (free label List.mem_cons_self state) taken
      | error fault => exact previous

-- A step that only observes more forgets to the step it observes.
theorem attempts_forget {τ : Type*} {observed : τ → α → Except ε τ} {forget : τ → σ}
    (same : ∀ state label, (observed state label).map forget = step (forget state) label) (state : τ) (labels : List α) :
    forget (attempts observed state labels) = attempts step (forget state) labels := by
  induction labels generalizing state with
  | nil => rfl
  | cons label rest ih =>
      have here : forget (attempt observed state label) = attempt step (forget state) label := by
        have taken := same state label
        unfold attempt
        rw [← taken]
        cases observed state label <;> rfl
      calc forget (attempts observed state (label :: rest))
          = attempts step (forget (attempt observed state label)) rest := ih _
        _ = attempts step (forget state) (label :: rest) := by rw [here]; rfl

@[simp] theorem run_nil : run step state [] = .ok state := rfl

theorem run_cons (label : α) (rest : List α) :
    run step state (label :: rest) = (step state label).bind fun next => run step next rest := by
  rw [run]
  cases step state label <;> rfl

theorem run_path (free : ∀ state label, allowed state label) (state : σ) {after : σ} (labels : List α)
    (previous : Path step allowed start state) (ran : run step state labels = .ok after) :
    Path step allowed start after := by
  induction labels generalizing state with
  | nil =>
      cases ran
      exact previous
  | cons label rest ih =>
      rw [run_cons] at ran
      cases taken : step state label with
      | ok next =>
          rw [taken] at ran
          exact ih next (.next state next label previous (free state label) taken) ran
      | error fault =>
          rw [taken] at ran
          cases ran

end

section Ends

-- Whatever labels are offered, every step commits and the goal is reached.
inductive Ends (step : σ → α → Except ε σ) (offered : σ → α → Prop) (goal : σ → Prop) : σ → Prop where
  | here (state : σ) (reached : goal state) : Ends step offered goal state
  | next (state : σ) (accepts : ∀ label, offered state label → ∃ after, step state label = .ok after)
      (goes : ∀ label after, offered state label → step state label = .ok after → Ends step offered goal after) :
      Ends step offered goal state

variable {step : σ → α → Except ε σ} {offered : σ → α → Prop} {goal : σ → Prop}

-- A measure that every offered step lowers, under an invariant it keeps.
theorem ends_of_measure {holds : σ → Prop} (measure : σ → Nat)
    (lowers : ∀ state label, holds state → ¬ goal state → offered state label →
      ∃ after, step state label = .ok after ∧ holds after ∧ measure after < measure state)
    (state : σ) (start : holds state) : Ends step offered goal state := by
  induction bound : measure state using Nat.strong_induction_on generalizing state with
  | _ size ih =>
      by_cases reached : goal state
      · exact .here state reached
      · refine .next state ?_ ?_
        · intro label may
          obtain ⟨after, taken, _⟩ := lowers state label start reached may
          exact ⟨after, taken⟩
        · intro label after may taken
          obtain ⟨other, same, still, lower⟩ := lowers state label start reached may
          obtain rfl := Except.ok.inj (same.symm.trans taken)
          exact ih (measure other) (bound ▸ lower) other still rfl

end Ends

end Transition
