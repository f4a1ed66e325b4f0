import Shiba.Execution.Quantum
import Shiba.Join.Correct

set_option autoImplicit false

namespace Shiba.Join

open Shiba.Execution Budget

-- A data chunk appended but not yet published.
structure PendingDataChunk where
  rows : Nat
  bytes : Nat
deriving DecidableEq, Repr

-- The output stream: its immutable targets, which its table checks, and its open chunk.
structure OutputTarget where
  targetRows : Nat
  targetBytes : Nat
  pending : Option PendingDataChunk := none
  rowsPositive : 0 < targetRows
  bytesPositive : 0 < targetBytes

inductive OutputAppendTarget where
  | new
  | extend (rowOffset previousBytes : Nat)
deriving DecidableEq, Repr

def outputAppendTarget (output : OutputTarget) (rows bytes : Nat) : Except Fault OutputAppendTarget := do
  refuse (decide (rows = 0) || decide (bytes = 0)) "output append has no rows or bytes"
  match output.pending with
  | none => return .new
  | some pending => do
      let combinedRows ← checkedU64 pending.rows rows "open output chunk row count overflow"
      let combinedBytes ← checkedU64 pending.bytes bytes "open output chunk byte count overflow"
      refuse (!(decide (combinedRows ≤ output.targetRows) && decide (combinedBytes ≤ output.targetBytes)))
        "pending output exceeded its immutable chunk target"
      return .extend pending.rows pending.bytes

def recordOutputAppend (output : OutputTarget) (target : OutputAppendTarget) (rows bytes : Nat) : Except Fault OutputTarget := do
  refuse (decide (rows = 0) || decide (bytes = 0)) "data output append must contain rows and bytes"
  match target with
  | .new => return { output with pending := some ⟨rows, bytes⟩ }
  | .extend rowOffset previousBytes => do
      refuse (decide (output.pending ≠ some ⟨rowOffset, previousBytes⟩)) "extended output append changed its open chunk"
      let combinedRows ← checkedU64 rowOffset rows "open output chunk row count overflow"
      let combinedBytes ← checkedU64 previousBytes bytes "open output chunk byte count overflow"
      return { output with pending := some ⟨combinedRows, combinedBytes⟩ }

def actionBytes (actions : List OutputAction) : Nat := (actions.map OutputAction.rowBytes).sum

-- append_actions' accounting: nothing for an empty prefix.
def appendOutput (output : OutputTarget) (actions : List OutputAction) : Except Fault OutputTarget :=
  if actions = [] then .ok output
  else do
    let target ← outputAppendTarget output actions.length (actionBytes actions)
    recordOutputAppend output target actions.length (actionBytes actions)

def effectiveBudget (budget : WorkBudget) (output : OutputTarget) : WorkBudget where
  maxInputRows := budget.maxInputRows
  maxInputBytes := budget.maxInputBytes
  maxOutputRows := min budget.maxOutputRows output.targetRows
  maxOutputBytes := min budget.maxOutputBytes output.targetBytes
  inputRowsPositive := budget.inputRowsPositive
  inputBytesPositive := budget.inputBytesPositive
  outputRowsPositive := lt_min budget.outputRowsPositive output.rowsPositive
  outputBytesPositive := lt_min budget.outputBytesPositive output.bytesPositive

-- What a step finds: a stored Preflight, or the operator state; and the rows of
-- the input chunk from the one in progress on.
structure StepInput (Row : Type) where
  state : JoinState Row
  preflight : Bool
  rows : List (Row × InputEventFacts)

structure LoopState (Row : Type) extends StepInput Row where
  output : OutputTarget
  quantum : WorkQuantum

-- The usage of a transition, and whether the loop goes on.
structure JoinTransition where
  usage : WorkUsage
  continueInTransaction : Bool

section Transitions

variable {Row : Type} [DecidableEq Row] (spec : JoinSpec Row)

-- The page that the probe's SQL returns: LIMIT, then the running bytes.
def probeCount (side : InputSide) (budget : WorkBudget) (entries : List (Entry Row)) : Nat :=
  (withinBudget (fun page => decide (pageBytes spec side page ≤ budget.maxInputBytes))
    (entries.take budget.maxInputRows)).length

def candidatesPlan (state : JoinState Row) (count : Nat) (budget : WorkBudget) : Except Fault ActionPlan := do
  let (current, progress) ← requireCurrent state
  let page := probeCandidates spec current progress (state.arrangement current.event.side.opposite) count
  planActions spec.mode current.continuation current.event page budget

def finalizePlan (state : JoinState Row) (budget : WorkBudget) : Except Fault FinalizePlan := do
  let (current, progress) ← requireCurrent state
  let side := current.event.side
  let own ← loadOwnExpectation (state.arrangement side) current.row current.event.weight
  refuse (decide (own ≠ progress.expectedOwn)) "Join own arrangement changed during its fanout"
  planFinalize spec.mode current.continuation current.event (ownProbe spec side current.row progress.oppositeCounts own) budget

def openNextInput (loop : LoopState Row) : Except Fault (LoopState Row × JoinTransition) := do
  refuse loop.rows.isEmpty "runnable Join has neither a continuation nor an input chunk"
  return ({ loop with preflight := true }, ⟨{}, true⟩)

def loopPreflight (loop : LoopState Row) : Except Fault (LoopState Row × JoinTransition) :=
  match loop.rows with
  | [] => .error (.failed "Join data continuation references an invalid input row")
  | (row, event) :: _ => do
      let state ← stepPreflight loop.state row event
      return ({ loop with state := state, preflight := false }, ⟨{}, true⟩)

def loopCandidates (loop : LoopState Row) (current : Current Row) (progress : InputProgress) (left : WorkBudget) :
    Except Fault (LoopState Row × JoinTransition) := do
  let budget := effectiveBudget left loop.output
  let side := current.event.side
  let count := probeCount spec side budget
    (remaining spec side current.row (cursor progress) (loop.state.arrangement side.opposite))
  let plan ← candidatesPlan spec loop.state count budget
  let output ← appendOutput loop.output plan.actions
  let state ← stepCandidates spec loop.state count budget
  return ({ loop with state := state, output := output }, ⟨plan.usage, true⟩)

-- The row is done: the next one starts at its Preflight, or the chunk ends.
def loopFinalize (loop : LoopState Row) (left : WorkBudget) : Except Fault (LoopState Row × JoinTransition) := do
  let budget := effectiveBudget left loop.output
  let plan ← finalizePlan spec loop.state budget
  let output ← appendOutput loop.output plan.output.toList
  let state ← stepFinalize spec loop.state budget
  let next := !loop.rows.tail.isEmpty
  return ({ loop with state := state, output := output, rows := loop.rows.tail, preflight := next }, ⟨plan.usage, next⟩)

def loopTransition (loop : LoopState Row) (left : WorkBudget) : Except Fault (LoopState Row × JoinTransition) :=
  match loop.state.current with
  | none => if loop.preflight then loopPreflight loop else openNextInput loop
  | some current =>
      match current.continuation with
      | .probe progress | .pendingTransition progress _ => loopCandidates spec loop current progress left
      | .finalize _ => loopFinalize spec loop left
      | .preflight _ _ | .frontier _ => .error (.failed "Join candidate phase omitted input progress")

-- One round of the loop of `step`, and whether another one follows.
def loopBody (loop : LoopState Row) : Except Fault (LoopState Row × Bool) :=
  match loop.quantum.remaining with
  | none => .error (.failed "Join quantum exhausted before its first transition")
  | some left => do
      let (after, transition) ← loopTransition spec loop left
      let quantum ← loop.quantum.record transition.usage
      return ({ after with quantum := quantum }, transition.continueInTransaction && quantum.remaining.isSome)

-- Each round takes one of the quantum's 64 transitions.
def stepLoop : Nat → LoopState Row → Except Fault (LoopState Row)
  | 0, _ => .error (.failed "Join quantum exhausted before its first transition")
  | rounds + 1, loop => do
      let (after, again) ← loopBody spec loop
      if again then stepLoop rounds after else return after

theorem loop_transitions_positive : 0 < 64 := by decide

def StepInput.begin (input : StepInput Row) (budget : WorkBudget) (output : OutputTarget) : LoopState Row :=
  { state := input.state, preflight := input.preflight, rows := input.rows, output := { output with pending := none }
    quantum :=
      { budget := effectiveBudget budget output, maxTransitions := 64, transitionsPositive := loop_transitions_positive } }

-- `step`, with the receipt's check of the whole usage.
def runStep (input : StepInput Row) (budget : WorkBudget) (output : OutputTarget) : Except Fault (LoopState Row) := do
  let final ← stepLoop spec 64 (input.begin budget output)
  final.quantum.used.validate budget
  return final

end Transitions

end Shiba.Join
