import Shiba.Linear.Pages

set_option autoImplicit false

namespace Shiba.Linear.Transform

open Budget Shiba.Stream Shiba.Execution Shiba.Execution.StepContext

structure TransformContinuation where
  inputStreamId : Nat
  inputChunkSeq : Nat
  nextRowOrdinal : Nat
deriving DecidableEq, Repr

-- The stage's operator with the SQL it compiles to. A predicate may be NULL.
inductive TransformOperator (Row Out : Type) where
  | filter (predicate : Row → Option Bool) (outputs : Row → Out)
  | project (outputs : Row → Out)

structure TransformSpec (Row Out : Type) where
  operator : TransformOperator Row Out
  inputLength : Row → Nat
  outputLength : Out → Nat

variable {Row Out : Type}

def compileTransform : TransformOperator Row Out → (Row → Option Bool) × (Row → Out)
  | .filter predicate outputs => (predicate, outputs)
  | .project outputs => (fun _ => some true, outputs)

namespace TransformSpec

-- A Filter or Project is measured as a Scan of no source would be.
def scanPlaceholder (spec : TransformSpec Row Out) : ScanSpec Row Out where
  sourceOid := 0
  project := (compileTransform spec.operator).2
  sourceLength := spec.inputLength
  outputLength := spec.outputLength

-- `(predicate) IS TRUE`.
def passes (spec : TransformSpec Row Out) (row : EffectRow Row) : Bool :=
  decide ((compileTransform spec.operator).1 row.rowValue = some true)

-- The rows that satisfy the predicate, mapped, in input order.
def image (spec : TransformSpec Row Out) (rows : List (EffectRow Row)) : List (EffectRow Out) :=
  (rows.filter spec.passes).map spec.scanPlaceholder.emit

end TransformSpec

abbrev TransformTables (Row Out : Type) := StageTables Row Out TransformContinuation Unit

abbrev TransformContext (Row Out : Type) := StepContext Row Out TransformContinuation Unit

-- The WHERE of `selected` at the last row of `taken`, the running counts being
-- those of its passing rows.
def selects (spec : TransformSpec Row Out) (maxOutputRows maxOutputBytes : Nat) (taken : List (EffectRow Row)) : Bool :=
  let running := spec.image taken
  decide (running.length = 0)
    || (decide (running.length ≤ maxOutputRows) && decide (spec.scanPlaceholder.outputBytes running ≤ maxOutputBytes))
    || ((taken.getLast?.any spec.passes) && decide (running.length = 1))

def selectedRows (spec : TransformSpec Row Out) (budget : WorkBudget) (output : OutputState Out)
    (rows : List (EffectRow Row)) : List (EffectRow Row) :=
  let maxOutputRows := min budget.maxOutputRows output.targetRows
  let maxOutputBytes := min budget.maxOutputBytes output.targetBytes
  let bounded := withinBudget (fun taken => decide (spec.scanPlaceholder.sourceBytes taken ≤ budget.maxInputBytes))
    (rows.take budget.maxInputRows)
  (bounded.zipIdx.filter fun item => selects spec maxOutputRows maxOutputBytes (bounded.take (item.2 + 1))).map Prod.fst

def runTransformPrimitive (spec : TransformSpec Row Out) (context : TransformContext Row Out) (chunk : EffectChunk Row)
    (rowOrdinal : Nat) : Except Fault (TransformContext Row Out × TransformFacts) := do
  let pending := (chunk.payload.take chunk.rowCount).drop rowOrdinal
  let selected := selectedRows spec context.budget context.output pending
  refuse selected.isEmpty "database returned NULL first input ordinal"
  let inserted := spec.image selected
  let emitted := inserted.length
  let outputBytes := spec.scanPlaceholder.outputBytes inserted
  let output : OutputFacts := if emitted = 0 then .none else .data context.output.nextChunkSeq
  let usage : WorkUsage := ⟨selected.length, spec.scanPlaceholder.sourceBytes selected, emitted, outputBytes⟩
  usage.validate context.budget
  refuse (decide (min context.budget.maxOutputRows context.output.targetRows < emitted)
      || (decide (1 < emitted) && decide (min context.budget.maxOutputBytes context.output.targetBytes < outputBytes)))
    "linear primitive exceeded its stream target"
  let facts : TransformFacts := ⟨usage, rowOrdinal, rowOrdinal + selected.length - 1, output⟩
  match output with
  | .data chunkSeq => do
      let context ← context.recordOutputAppend (.new chunkSeq) emitted outputBytes chunk.chunkLsn inserted
      return (context, facts)
  | _ => return (context, facts)

def deleteContinuation (context : TransformContext Row Out) (expectedExists : Bool) :
    Except Fault (TransformContext Row Out) :=
  if expectedExists then context.clearContinuationLocked "linear" else .ok context

def replaceTransformContinuation (context : TransformContext Row Out) (previous : Option TransformContinuation)
    (next : TransformContinuation) : Except Fault (TransformContext Row Out) := do
  refuse (decide (next.inputStreamId = 0) || decide (next.inputChunkSeq = 0))
    "linear continuation contains an invalid cursor"
  context.replaceContinuationCas previous (some next) "linear"

-- The end of a data step: a cursor inside the chunk, or the chunk is done.
def finishTransform (context : TransformContext Row Out) (hadContinuation : Bool) (chunk : EffectChunk Row)
    (rowOrdinal nextRow : Nat) : Except Fault (TransformContext Row Out) :=
  let streamId := context.input.streamId
  if nextRow < chunk.rowCount then
    replaceTransformContinuation context
      (if hadContinuation then some ⟨streamId, chunk.chunkSeq, rowOrdinal⟩ else none) ⟨streamId, chunk.chunkSeq, nextRow⟩
  else if nextRow = chunk.rowCount then do
    let context ← deleteContinuation context hadContinuation
    context.advanceInput (chunk.chunkSeq + 1) context.input.consumedFrontierLsn ⟨chunk.rowCount, chunk.payloadBytes, 0, 0⟩
  else .error (.failed "linear primitive advanced beyond its input chunk")

def stepDataTransform (spec : TransformSpec Row Out) (context : TransformContext Row Out) (hadContinuation : Bool)
    (chunk : EffectChunk Row) (rowOrdinal : Nat) : Except Fault (TransformContext Row Out × StepReceipt) := do
  refuse (decide (chunk.rowCount ≤ rowOrdinal)) "linear continuation row is outside its input chunk"
  refuse (decide (chunk.chunkSeq ≠ context.input.nextChunkSeq)) "linear chunk is not at the consumer cursor"
  if rowOrdinal = 0 then payloadFacts spec.scanPlaceholder context.input.streamId chunk
  let (context, facts) ← runTransformPrimitive spec context chunk rowOrdinal
  refuse (decide (facts.firstOrdinal ≠ rowOrdinal)) "linear primitive did not start at its continuation"
  let context ← finishTransform context hadContinuation chunk rowOrdinal (facts.lastOrdinal + 1)
  context.transitionFacts .process { usage := facts.usage, output := facts.output }

def stepFrontier (context : TransformContext Row Out) (hadContinuation : Bool) (chunk : EffectChunk Row)
    (rowOrdinal : Nat) : Except Fault (TransformContext Row Out × StepReceipt) := do
  refuse (decide (rowOrdinal ≠ 0)) "frontier continuation has a row offset"
  let context ← context.appendFrontier chunk.chunkLsn
  let context ← context.advanceInput (chunk.chunkSeq + 1) chunk.chunkLsn {}
  let context ← deleteContinuation context hadContinuation
  let receipt ← context.transition .frontier {}
  return (context, receipt)

def executeTransform (spec : TransformSpec Row Out) (context : TransformContext Row Out) :
    Except Fault (TransformContext Row Out × StepReceipt) := do
  let continuation := context.tables.continuation
  let context ← context.bindContinuationAuthority continuation.isSome
  refuse (continuation.any fun saved => decide (saved.inputStreamId ≠ context.input.streamId))
    "linear continuation references another input stream"
  match ← chunkAt context.tables.input context.input.nextChunkSeq with
  | none => .error (.failed "runnable linear stage has no input chunk")
  | some chunk => do
      refuse (continuation.any fun saved => decide (saved.inputChunkSeq ≠ chunk.chunkSeq))
        "linear continuation is not at its input cursor"
      let rowOrdinal := (continuation.map TransformContinuation.nextRowOrdinal).getD 0
      match chunk.chunkKind with
      | .frontier => stepFrontier context continuation.isSome chunk rowOrdinal
      | .data => stepDataTransform spec context continuation.isSome chunk rowOrdinal

def stepTransform (spec : TransformSpec Row Out) (tables : TransformTables Row Out) (key : ConsumerKey)
    (budget : WorkBudget) : Except Fault (TransformTables Row Out) :=
  runKernel [.admitted, .process, .frontier] false (executeTransform spec) tables key budget

end Shiba.Linear.Transform
