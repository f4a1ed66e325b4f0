import Mathlib.Tactic

set_option autoImplicit false

namespace Rounds

universe u v w

variable {σ : Type u} {β : Type v} {ε : Type w} (step : σ → β → Except ε σ) (stopped : σ → Bool) (budgets : Nat → β)

-- At most so many rounds from one round on, each with a budget of its own.
def rounds : Nat → Nat → σ → Except ε σ
  | 0, _, state => .ok state
  | count + 1, round, state =>
      if stopped state then .ok state
      else
        match step state (budgets round) with
        | .error fault => .error fault
        | .ok after => rounds count (round + 1) after

theorem rounds_stopped (count round : Nat) (state : σ) (done : stopped state = true) :
    rounds step stopped budgets count round state = .ok state := by
  cases count with
  | zero => rfl
  | succ count => rw [rounds, if_pos done]

theorem rounds_next (count round : Nat) (state after : σ) (goes : stopped state = false)
    (stepped : step state (budgets round) = .ok after) :
    rounds step stopped budgets (count + 1) round state = rounds step stopped budgets count (round + 1) after := by
  rw [rounds, goes, if_neg Bool.false_ne_true, stepped]

variable (holds : σ → Prop) (offered : β → Prop)
  (keeps : ∀ state budget, holds state → stopped state = false → offered budget → ∃ after, step state budget = .ok after ∧ holds after)
  (budgeted : ∀ round, offered (budgets round))

include keeps budgeted

-- No round fails, and all of them keep the invariant.
theorem rounds_keep (count round : Nat) (state : σ) (start : holds state) :
    ∃ after, rounds step stopped budgets count round state = .ok after ∧ holds after := by
  induction count generalizing round state with
  | zero => exact ⟨state, rfl, start⟩
  | succ count ih =>
      cases done : stopped state with
      | true => exact ⟨state, rounds_stopped step stopped budgets _ round state done, start⟩
      | false =>
          obtain ⟨after, stepped, kept⟩ := keeps state (budgets round) start done (budgeted round)
          obtain ⟨final, ran, ends⟩ := ih (round + 1) after kept
          exact ⟨final, (rounds_next step stopped budgets count round state after done stepped).trans ran, ends⟩

-- A measure that every round lowers ends them.
theorem rounds_end (measure : σ → Nat)
    (lowers : ∀ state budget after, holds state → stopped state = false → offered budget → step state budget = .ok after →
      measure after < measure state) (round : Nat) (state : σ) (start : holds state) :
    ∃ count final, rounds step stopped budgets count round state = .ok final ∧ holds final ∧ stopped final = true := by
  induction bound : measure state using Nat.strong_induction_on generalizing round state with
  | _ size ih =>
      cases done : stopped state with
      | true => exact ⟨0, state, rfl, start, done⟩
      | false =>
          obtain ⟨after, stepped, kept⟩ := keeps state (budgets round) start done (budgeted round)
          have lower := lowers state (budgets round) after start done (budgeted round) stepped
          obtain ⟨count, final, ran, ends⟩ := ih (measure after) (bound ▸ lower) (round + 1) after kept rfl
          exact ⟨count + 1, final, (rounds_next step stopped budgets count round state after done stepped).trans ran, ends⟩

omit keeps budgeted in
-- Where no round may stop, and a round that does not fail lowers the measure,
-- one of them fails.
theorem rounds_fail (measure : σ → Nat) (never : ∀ state, holds state → stopped state = false)
    (lowers : ∀ state round after, holds state → step state (budgets round) = .ok after →
      holds after ∧ measure after < measure state) (round : Nat) (state : σ) (start : holds state) :
    ∃ count fault, rounds step stopped budgets count round state = .error fault := by
  induction bound : measure state using Nat.strong_induction_on generalizing round state with
  | _ size ih =>
      have goes := never state start
      cases stepped : step state (budgets round) with
      | error fault =>
          refine ⟨1, fault, ?_⟩
          rw [rounds, goes, if_neg Bool.false_ne_true, stepped]
      | ok after =>
          obtain ⟨kept, lower⟩ := lowers state round after start stepped
          obtain ⟨count, fault, failed⟩ := ih (measure after) (bound ▸ lower) (round + 1) after kept rfl
          exact ⟨count + 1, fault, (rounds_next step stopped budgets count round state after goes stepped).trans failed⟩

omit keeps budgeted in
-- Rounds whose steps follow those of other rounds state for state.
theorem rounds_follow {τ : Type u} {κ : Type w} {copied : τ → β → Except κ τ} {halted : τ → Bool} {image : σ → τ}
    (stops : ∀ state, holds state → halted (image state) = stopped state)
    (follows : ∀ state budget, holds state → stopped state = false → offered budget →
      ∃ after, step state budget = .ok after ∧ holds after ∧ copied (image state) budget = .ok (image after))
    (budgeted : ∀ round, offered (budgets round)) (count round : Nat) (state : σ) (start : holds state) :
    ∃ after, rounds step stopped budgets count round state = .ok after ∧ holds after ∧
      rounds copied halted budgets count round (image state) = .ok (image after) := by
  induction count generalizing round state with
  | zero => exact ⟨state, rfl, start, rfl⟩
  | succ count ih =>
      have same := stops state start
      cases done : stopped state with
      | true =>
          rw [done] at same
          exact ⟨state, rounds_stopped step stopped budgets _ round state done, start,
            rounds_stopped copied halted budgets _ round _ same⟩
      | false =>
          rw [done] at same
          obtain ⟨after, stepped, kept, followed⟩ := follows state (budgets round) start done (budgeted round)
          obtain ⟨final, ran, ends, behind⟩ := ih (round + 1) after kept
          exact ⟨final, (rounds_next step stopped budgets count round state after done stepped).trans ran, ends,
            (rounds_next copied halted budgets count round _ _ same followed).trans behind⟩

end Rounds
