import Shiba.Aggregate.Continuation
import Shiba.Window.Continuation

set_option autoImplicit false

namespace Shiba.Execution

open Transition
open Shiba.TopN (topnCodec TopNFields)
open Shiba.Aggregate (aggregateCodec AggregateMachine AggregateContinuation AggregateActionResult AggregateTransition RebuiltPage AppliedPage)
open Shiba.Window (windowCodec)

theorem continuations_round_trip :
    topnCodec.RoundTrips TopNFields.Canonical TopN.ProducedRow (fun _ => True) ∧
      aggregateCodec.RoundTrips (fun _ => True) (fun continuation => ∃ machine, Aggregate.Produced machine continuation)
        (fun continuation => continuation.phase.ordinalFits) ∧
      windowCodec.RoundTrips (fun _ => True) Window.ProducedRow (fun stored => stored.phase.ordinalFits) :=
  ⟨TopN.topn_round_trips, Aggregate.aggregate_round_trips, Window.window_round_trips⟩

-- One transition, of a machine that has not finished its input.
def aggregateStep (machine : AggregateMachine) (continuation : AggregateContinuation)
    (taken : AggregateActionResult × WorkBudget) : Except Fault AggregateContinuation := do
  let transition ← machine.apply continuation taken.1 taken.2
  omitted transition.continuation "the input is finished"

def oneRow : WorkBudget := ⟨1, 1, 1, 1, Nat.one_pos, Nat.one_pos, Nat.one_pos, Nat.one_pos⟩

def admittedOne : AggregateActionResult × WorkBudget :=
  (.applied ⟨{ usage := { inputRows := 1, inputBytes := 1 } }, .drain 1 .idle⟩, oneRow)

def rebuiltOne : AggregateActionResult × WorkBudget :=
  (.rebuilt ⟨⟨{}, none, true⟩, { stateRows := 1 }⟩, oneRow)

def rebuilding (ordinal : Nat) : AggregateContinuation := ⟨1, none, .drainRebuild 1 ordinal .idle⟩

theorem rebuilt_step (count ordinal : Nat) (positive : 0 < ordinal) (inside : ordinal < count) :
    aggregateStep ⟨count⟩ (rebuilding ordinal) rebuiltOne = .ok (rebuilding (ordinal + 1)) := by
  have listed : (decide (ordinal = 0) || decide (count < ordinal)) = false := by
    rw [Bool.or_eq_false_iff, decide_eq_false_iff_not, decide_eq_false_iff_not]
    omega
  have acted : AggregateMachine.action ⟨count⟩ (rebuilding ordinal) = .ok (.drainRebuild 1 ordinal) := by
    refine bind_ok_iff.mpr ⟨(), ?_, rfl⟩
    refine bind_ok_iff.mpr ⟨(), rfl, ?_⟩
    refine bind_ok_iff.mpr ⟨(), rfl, ?_⟩
    exact refuse_bind_ok.mpr ⟨listed, rfl⟩
  refine bind_ok_iff.mpr ⟨⟨some (rebuilding (ordinal + 1)), { stateRows := 1 }⟩, ?_, rfl⟩
  refine bind_ok_iff.mpr ⟨_, acted, ?_⟩
  change (pure (AggregateTransition.mk (some ⟨1, none, if ordinal < count then _ else _⟩) _) : Except Fault _) = _
  rw [if_pos inside]
  rfl

theorem rebuilt_run (count ordinal pages : Nat) (positive : 0 < ordinal) (inside : ordinal + pages ≤ count) :
    run (aggregateStep ⟨count⟩) (rebuilding ordinal) (List.replicate pages rebuiltOne) = .ok (rebuilding (ordinal + pages)) := by
  induction pages generalizing ordinal with
  | zero => rfl
  | succ pages ih =>
      rw [List.replicate_succ, run_cons, rebuilt_step count ordinal positive (by omega)]
      have rest := ih (ordinal + 1) (by omega) (by omega)
      rw [Nat.add_right_comm] at rest
      exact rest

theorem admitted_step (count : Nat) (positive : 0 < count) :
    aggregateStep ⟨count⟩ ⟨1, some ⟨1, 1, 0⟩, .apply⟩ admittedOne = .ok (rebuilding 1) := by
  have listed : (decide ((1 : Nat) = 0) || decide (count < 1)) = false := by
    rw [Bool.or_eq_false_iff, decide_eq_false_iff_not, decide_eq_false_iff_not]
    omega
  have checked : AggregateMachine.validateContinuation ⟨count⟩ (rebuilding 1) = .ok () := by
    refine bind_ok_iff.mpr ⟨(), rfl, ?_⟩
    refine bind_ok_iff.mpr ⟨(), rfl, ?_⟩
    exact refuse_bind_ok.mpr ⟨listed, rfl⟩
  refine bind_ok_iff.mpr ⟨⟨some (rebuilding 1), { usage := { inputRows := 1, inputBytes := 1 } }⟩, ?_, rfl⟩
  refine bind_ok_iff.mpr ⟨.apply ⟨1, 1, 0⟩, rfl, ?_⟩
  refine bind_ok_iff.mpr ⟨(), rfl, ?_⟩
  refine bind_ok_iff.mpr ⟨(), rfl, ?_⟩
  refine refuse_bind_ok.mpr ⟨rfl, ?_⟩
  refine bind_ok_iff.mpr ⟨(), rfl, ?_⟩
  refine bind_ok_iff.mpr ⟨(), rfl, ?_⟩
  exact bind_ok_iff.mpr ⟨(), checked, rfl⟩

-- A machine of 2 ^ 31 aggregates comes to the last of them, which no integer column holds.
theorem last_ordinal_unwritten :
    run (aggregateStep ⟨2 ^ 31⟩) ⟨1, some ⟨1, 1, 0⟩, .apply⟩ (admittedOne :: List.replicate (2 ^ 31 - 1) rebuiltOne) =
        .ok (rebuilding (2 ^ 31)) ∧
      aggregateCodec.encode (rebuilding (2 ^ 31)) = .error (.failed "Aggregate ordinal exceeds integer") := by
  constructor
  · have rest := rebuilt_run (2 ^ 31) 1 (2 ^ 31 - 1) (by decide) (by decide)
    have last : 1 + (2 ^ 31 - 1) = 2 ^ 31 := by decide
    rw [last] at rest
    rw [run_cons, admitted_step (2 ^ 31) (by decide), Except.bind]
    exact rest
  · rfl

end Shiba.Execution
