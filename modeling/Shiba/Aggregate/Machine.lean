import Shiba.Execution.Continuation
import Shiba.TopN.Machine

set_option autoImplicit false

namespace Shiba.Aggregate

open Shiba.Execution

abbrev InputPosition := StoredPosition

-- What follows one complete drain of the durable dirty-group queue.
inductive AfterDrain where
  | apply (next : InputPosition)
  | idle
  | frontier (position : InputPosition)
deriving DecidableEq, Repr

inductive EmitLeg where
  | decide
  | insertPending
deriving DecidableEq, Repr

inductive AggregatePhase where
  | apply
  | drainRebuild (groupQueueId : Int) (aggregateOrdinal : Nat) (after : AfterDrain)
  | drainEmit (groupQueueId : Int) (leg : EmitLeg) (after : AfterDrain)
  | frontier
deriving DecidableEq, Repr

structure AggregateContinuation where
  inputStreamId : Int
  input : Option InputPosition
  phase : AggregatePhase
deriving DecidableEq, Repr

structure AggregateMachine where
  aggregateCount : Nat
deriving DecidableEq, Repr

inductive AggregateAction where
  | apply (input : InputPosition)
  | drainRebuild (groupQueueId : Int) (aggregateOrdinal : Nat)
  | prepareOutput (groupQueueId : Int)
  | emitPending (groupQueueId : Int)
  | forwardFrontier (input : InputPosition)
deriving DecidableEq, Repr

inductive ApplyTarget where
  | continuing (next : InputPosition)
  | drain (firstGroupQueueId : Int) (after : AfterDrain)
  | idle
deriving DecidableEq, Repr

structure AppliedPage where
  facts : PrimitiveFacts
  target : ApplyTarget
deriving DecidableEq, Repr

structure RebuiltPage where
  page : PageFacts
  facts : PrimitiveFacts
deriving DecidableEq, Repr

inductive PreparedOutput where
  | unchanged (facts : PrimitiveFacts) (nextGroupQueueId : Option Int)
  | inserted (facts : PrimitiveFacts) (nextGroupQueueId : Option Int)
  | deleted (facts : PrimitiveFacts) (nextGroupQueueId : Option Int)
  | replacementRetracted (facts : PrimitiveFacts)
deriving DecidableEq, Repr

structure PendingOutput where
  facts : PrimitiveFacts
  nextGroupQueueId : Option Int
deriving DecidableEq, Repr

inductive FrontierResult where
  | forwarded (facts : PrimitiveFacts)
  | globalGroupQueued (facts : PrimitiveFacts) (groupQueueId : Int)
deriving DecidableEq, Repr

inductive AggregateActionResult where
  | applied (page : AppliedPage)
  | rebuilt (page : RebuiltPage)
  | outputPrepared (prepared : PreparedOutput)
  | pendingEmitted (emitted : PendingOutput)
  | frontier (result : FrontierResult)
deriving DecidableEq, Repr

structure AggregateTransition where
  continuation : Option AggregateContinuation
  facts : PrimitiveFacts
deriving DecidableEq, Repr

def validateQueueId (queueId : Int) : Except Fault Unit :=
  refuse (decide (queueId ≤ 0)) "Aggregate dirty-group queue id is not positive"

def validateInput (input : InputPosition) : Except Fault Unit :=
  refuse (decide (input.streamId ≤ 0) || decide (input.chunkSeq ≤ 0) || decide (input.rowOrdinal < 0))
    "Aggregate input position is invalid"

def validateAfterDrain (inputStreamId : Int) (after : AfterDrain) : Except Fault Unit := do
  refuse (decide (inputStreamId ≤ 0)) "Aggregate Drain target has an invalid input stream"
  match after with
  | .apply input => do
      validateInput input
      refuse (decide (input.streamId ≠ inputStreamId)) "Aggregate Drain target changed its input stream"
  | .idle => return ()
  | .frontier position => do
      validateInput position
      refuse (decide (position.streamId ≠ inputStreamId) || decide (position.rowOrdinal ≠ 0))
        "Aggregate Drain has an invalid frontier target"

def validateInternalPage (facts : PrimitiveFacts) (permitsInput : Bool) : Except Fault Unit :=
  refuse (decide (facts.output ≠ .none) || decide (facts.usage.outputRows ≠ 0) || decide (facts.usage.outputBytes ≠ 0) ||
      (!permitsInput && (decide (facts.usage.inputRows ≠ 0) || decide (facts.usage.inputBytes ≠ 0))))
    "Aggregate internal phase reported external effects"

def validateNoOutput (facts : PrimitiveFacts) : Except Fault Unit :=
  refuse (decide (facts.output ≠ .none) || decide (facts.usage.inputRows ≠ 0) || decide (facts.usage.inputBytes ≠ 0) ||
      decide (facts.usage.outputRows ≠ 0) || decide (facts.usage.outputBytes ≠ 0))
    "unchanged Aggregate group emitted an effect"

def validateOneEffect (facts : PrimitiveFacts) : Except Fault Unit :=
  refuse (!facts.output.isData || decide (facts.usage.inputRows ≠ 0) || decide (facts.usage.inputBytes ≠ 0) ||
      decide (facts.usage.outputRows ≠ 1) || decide (facts.usage.outputBytes = 0))
    "Aggregate emission must contain exactly one typed effect row"

-- The target of a drain; the source destructures the phase that its action fixed.
def phaseAfterDrain : AggregatePhase → Except Fault AfterDrain
  | .drainRebuild _ _ after | .drainEmit _ _ after => .ok after
  | .apply | .frontier => .error (.failed "the expected action already established the phase")

namespace AggregateMachine

def new (aggregateCount : Nat) : Except Fault AggregateMachine := do
  refuse (decide (aggregateCount = 0)) "Aggregate must contain at least one aggregate expression"
  return ⟨aggregateCount⟩

def validateContinuation (machine : AggregateMachine) (continuation : AggregateContinuation) : Except Fault Unit := do
  refuse (decide (continuation.inputStreamId ≤ 0) ||
      continuation.input.any fun input => decide (input.streamId ≠ continuation.inputStreamId))
    "Aggregate continuation has an invalid input stream"
  match continuation.phase with
  | .apply =>
      match continuation.input with
      | none => .error (.failed "Aggregate Apply omitted its input cursor")
      | some input => validateInput input
  | .frontier =>
      match continuation.input with
      | none => .error (.failed "Aggregate frontier omitted its input cursor")
      | some input => do
          validateInput input
          refuse (decide (input.rowOrdinal ≠ 0)) "Aggregate frontier has a data-row position"
  | .drainRebuild groupQueueId aggregateOrdinal after => do
      validateQueueId groupQueueId
      refuse (decide (aggregateOrdinal = 0) || decide (machine.aggregateCount < aggregateOrdinal))
        "Aggregate ordinal is outside its plan"
      refuse continuation.input.isSome "Aggregate Drain retained an input cursor"
      validateAfterDrain continuation.inputStreamId after
  | .drainEmit groupQueueId _ after => do
      validateQueueId groupQueueId
      refuse continuation.input.isSome "Aggregate Drain retained an input cursor"
      validateAfterDrain continuation.inputStreamId after

def action (machine : AggregateMachine) (continuation : AggregateContinuation) : Except Fault AggregateAction := do
  machine.validateContinuation continuation
  match continuation.phase with
  | .apply =>
      match continuation.input with
      | none => .error (.failed "validated Aggregate Apply input")
      | some input => return .apply input
  | .drainRebuild groupQueueId aggregateOrdinal _ => return .drainRebuild groupQueueId aggregateOrdinal
  | .drainEmit groupQueueId .decide _ => return .prepareOutput groupQueueId
  | .drainEmit groupQueueId .insertPending _ => return .emitPending groupQueueId
  | .frontier =>
      match continuation.input with
      | none => .error (.failed "validated Aggregate frontier input")
      | some input => return .forwardFrontier input

def applyPage (machine : AggregateMachine) (input : InputPosition) (applied : AppliedPage) (budget : WorkBudget) :
    Except Fault AggregateTransition := do
  applied.facts.validate budget
  validateInternalPage applied.facts true
  refuse (decide (applied.facts.usage.inputRows = 0)) "Aggregate Apply made no bounded input progress"
  match applied.target with
  | .continuing next => do
      validateInput next
      refuse (decide (next.streamId ≠ input.streamId) || decide (next.chunkSeq ≠ input.chunkSeq) ||
          decide (next.rowOrdinal ≤ input.rowOrdinal)) "Aggregate Apply continuation did not advance its page"
      let continuation : AggregateContinuation := ⟨input.streamId, some next, .apply⟩
      machine.validateContinuation continuation
      return ⟨some continuation, applied.facts⟩
  | .drain firstGroupQueueId after => do
      validateQueueId firstGroupQueueId
      validateAfterDrain input.streamId after
      let continuation : AggregateContinuation := ⟨input.streamId, none, .drainRebuild firstGroupQueueId 1 after⟩
      machine.validateContinuation continuation
      return ⟨some continuation, applied.facts⟩
  | .idle => return ⟨none, applied.facts⟩

def applyRebuild (machine : AggregateMachine) (continuation : AggregateContinuation) (groupQueueId : Int)
    (aggregateOrdinal : Nat) (rebuilt : RebuiltPage) (budget : WorkBudget) : Except Fault AggregateTransition := do
  rebuilt.page.validate budget
  rebuilt.facts.validate budget
  refuse (decide (rebuilt.facts.usage ≠ rebuilt.page.usage) || decide (rebuilt.facts.output ≠ .none) ||
      decide (rebuilt.facts.stateRows = 0)) "Aggregate rebuild primitive facts are inconsistent"
  refuse (decide (rebuilt.page.usage.outputRows ≠ 0) || decide (rebuilt.page.usage.outputBytes ≠ 0))
    "Aggregate rebuild emitted output"
  refuse (!rebuilt.page.complete && decide (rebuilt.page.usage.inputRows = 0))
    "partial Aggregate rebuild made no bounded progress"
  refuse (rebuilt.page.lastRowId.any fun rowId => decide (rowId ≤ 0)) "Aggregate rebuild returned a non-positive row cursor"
  let after ← phaseAfterDrain continuation.phase
  let phase : AggregatePhase :=
    if !rebuilt.page.complete then .drainRebuild groupQueueId aggregateOrdinal after
    else if aggregateOrdinal < machine.aggregateCount then .drainRebuild groupQueueId (aggregateOrdinal + 1) after
    else .drainEmit groupQueueId .decide after
  return ⟨some ⟨continuation.inputStreamId, none, phase⟩, rebuilt.facts⟩

def afterCompletedGroup (inputStreamId completedQueueId : Int) (nextGroupQueueId : Option Int) (after : AfterDrain) :
    Except Fault (Option AggregateContinuation) :=
  match nextGroupQueueId with
  | some nextQueueId => do
      validateQueueId nextQueueId
      refuse (decide (nextQueueId ≤ completedQueueId)) "Aggregate dirty-group queue did not advance"
      return some ⟨inputStreamId, none, .drainRebuild nextQueueId 1 after⟩
  | none =>
      match after with
      | .apply next => .ok (some ⟨inputStreamId, some next, .apply⟩)
      | .idle => .ok none
      | .frontier position => .ok (some ⟨inputStreamId, some position, .frontier⟩)

-- A page that decided its group goes to the next one, a retracted replacement to its insertion.
def applyPreparedOutput (continuation : AggregateContinuation) (groupQueueId : Int) (prepared : PreparedOutput)
    (budget : WorkBudget) : Except Fault AggregateTransition :=
  match prepared with
  | .unchanged facts nextGroupQueueId => do
      validateNoOutput facts
      facts.validate budget
      let after ← phaseAfterDrain continuation.phase
      let next ← afterCompletedGroup continuation.inputStreamId groupQueueId nextGroupQueueId after
      return ⟨next, facts⟩
  | .inserted facts nextGroupQueueId | .deleted facts nextGroupQueueId => do
      validateOneEffect facts
      facts.validate budget
      let after ← phaseAfterDrain continuation.phase
      let next ← afterCompletedGroup continuation.inputStreamId groupQueueId nextGroupQueueId after
      return ⟨next, facts⟩
  | .replacementRetracted facts => do
      validateOneEffect facts
      facts.validate budget
      let after ← phaseAfterDrain continuation.phase
      return ⟨some ⟨continuation.inputStreamId, none, .drainEmit groupQueueId .insertPending after⟩, facts⟩

def applyPendingOutput (continuation : AggregateContinuation) (groupQueueId : Int) (emitted : PendingOutput)
    (budget : WorkBudget) : Except Fault AggregateTransition := do
  emitted.facts.validate budget
  validateOneEffect emitted.facts
  let after ← phaseAfterDrain continuation.phase
  let next ← afterCompletedGroup continuation.inputStreamId groupQueueId emitted.nextGroupQueueId after
  return ⟨next, emitted.facts⟩

def applyFrontier (continuation : AggregateContinuation) (result : FrontierResult) (budget : WorkBudget) :
    Except Fault AggregateTransition :=
  match result with
  | .forwarded facts => do
      facts.validateProtocol budget .frontier .finished
      refuse (!facts.output.isFrontier || decide (facts.stateRows ≠ 0) || decide (facts.usage.inputRows ≠ 0) ||
          decide (facts.usage.inputBytes ≠ 0)) "Aggregate frontier commit is inconsistent"
      return ⟨none, facts⟩
  | .globalGroupQueued facts groupQueueId => do
      facts.validateProtocol budget .frontier .continuing
      validateInternalPage facts false
      validateQueueId groupQueueId
      refuse (decide (facts.stateRows = 0)) "global Aggregate bootstrap omitted its continuation"
      match continuation.input with
      | none => .error (.failed "global Aggregate bootstrap lost its frontier")
      | some position =>
          return ⟨some ⟨continuation.inputStreamId, none, .drainRebuild groupQueueId 1 (.frontier position)⟩, facts⟩

def apply (machine : AggregateMachine) (continuation : AggregateContinuation) (result : AggregateActionResult)
    (budget : WorkBudget) : Except Fault AggregateTransition := do
  match ← machine.action continuation, result with
  | .apply input, .applied applied => machine.applyPage input applied budget
  | .drainRebuild groupQueueId aggregateOrdinal, .rebuilt rebuilt =>
      machine.applyRebuild continuation groupQueueId aggregateOrdinal rebuilt budget
  | .prepareOutput groupQueueId, .outputPrepared prepared => applyPreparedOutput continuation groupQueueId prepared budget
  | .emitPending groupQueueId, .pendingEmitted emitted => applyPendingOutput continuation groupQueueId emitted budget
  | .forwardFrontier _, .frontier result => applyFrontier continuation result budget
  | _, _ => .error (.failed "database returned facts for another Aggregate phase")

end AggregateMachine

end Shiba.Aggregate
