import Shiba.Execution.Context

set_option autoImplicit false

namespace Shiba.Linear

open Budget Shiba.Stream Shiba.Execution Shiba.Execution.StepContext

inductive ScanPhase where
  | bootstrap
  | snapshotFrontier
  | data
  | sourceFrontier
deriving DecidableEq, Repr

structure ScanContinuation where
  phase : ScanPhase
  inputStreamId : Nat
  inputChunkSeq : Option Nat := none
  nextRowOrdinal : Option Nat := none
  nextBootstrapSeq : Option Nat := none
  pendingFrontierLsn : Option Lsn := none
deriving DecidableEq, Repr

-- The columns a Scan keeps of a source row, and octet_length(record_send(row))
-- on both sides.
structure ScanSpec (Row Out : Type) where
  sourceOid : Oid
  project : Row → Out
  sourceLength : Row → Nat
  outputLength : Out → Nat

variable {Row Out : Type}

namespace ScanSpec

def sourceBytes (spec : ScanSpec Row Out) (rows : List (EffectRow Row)) : Nat :=
  (rows.map fun row => spec.sourceLength row.rowValue + 8).sum

def outputBytes (spec : ScanSpec Row Out) (rows : List (EffectRow Out)) : Nat :=
  (rows.map fun row => spec.outputLength row.rowValue + 8).sum

def emit (spec : ScanSpec Row Out) (row : EffectRow Row) : EffectRow Out := ⟨row.weight, spec.project row.rowValue⟩

end ScanSpec

-- (bootstrap_seq, row_value), in bootstrap_seq order.
abbrev Bootstrap (Out : Type) := List (Nat × Out)

abbrev ScanTables (Row Out : Type) := StageTables Row Out ScanContinuation (Bootstrap Out)

abbrev ScanContext (Row Out : Type) := StepContext Row Out ScanContinuation (Bootstrap Out)

def validateScanContinuation (continuation : ScanContinuation) : Except Fault Unit := do
  refuse (decide (continuation.inputStreamId = 0)) "Scan continuation has an invalid input stream"
  let valid := match continuation.phase with
    | .bootstrap =>
        continuation.inputChunkSeq.isNone && continuation.nextRowOrdinal.isNone
          && (continuation.nextBootstrapSeq.any fun value => decide (0 < value))
          && continuation.pendingFrontierLsn.isNone
    | .snapshotFrontier =>
        continuation.inputChunkSeq.isNone && continuation.nextRowOrdinal.isNone
          && continuation.nextBootstrapSeq.isNone && continuation.pendingFrontierLsn.isSome
    | .data =>
        (continuation.inputChunkSeq.any fun value => decide (0 < value)) && continuation.nextRowOrdinal.isSome
          && continuation.nextBootstrapSeq.isNone && continuation.pendingFrontierLsn.isNone
    | .sourceFrontier =>
        continuation.inputChunkSeq.isNone && continuation.nextRowOrdinal.isNone
          && continuation.nextBootstrapSeq.isNone && continuation.pendingFrontierLsn.isSome
  refuse (!valid) "Scan continuation fields do not match its phase"

def replaceScanContinuation (context : ScanContext Row Out) (previous : Option ScanContinuation)
    (next : ScanContinuation) : Except Fault (ScanContext Row Out) := do
  validateScanContinuation next
  context.replaceContinuationCas previous (some next) "Scan"

def deleteContinuation (context : ScanContext Row Out) (expectedExists : Bool) : Except Fault (ScanContext Row Out) :=
  if expectedExists then context.clearContinuationLocked "linear" else .ok context

def chunkAt (history : StreamHistory Row) (sequence : Nat) : Except Fault (Option (EffectChunk Row)) := do
  refuse (decide (sequence = 0)) "effect chunk sequence must be positive"
  match history.stream.chunks.find? fun chunk => chunk.chunkSeq = sequence with
  | none => return none
  | some chunk => do
      match chunk.chunkKind with
      | .data => refuse (decide (chunk.rowCount = 0) || decide (chunk.payloadBytes = 0)) "data chunk has no payload"
      | .frontier =>
          refuse (decide (chunk.rowCount ≠ 0) || decide (chunk.payloadBytes ≠ 0)) "frontier chunk has payload"
      return some chunk

def payloadFacts (spec : ScanSpec Row Out) (streamId : Nat) (chunk : EffectChunk Row) : Except Fault Unit :=
  refuse (decide (chunk.payload.length ≠ chunk.rowCount) || decide (spec.sourceBytes chunk.payload ≠ chunk.payloadBytes))
    s!"chunk {streamId}/{chunk.chunkSeq} payload does not match immutable metadata"

def assertFrontierSkipsNoSourceChunk (context : ScanContext Row Out) (frontier : Lsn) : Except Fault Unit :=
  refuse (context.tables.input.stream.chunks.any fun pending =>
      decide (context.input.nextChunkSeq ≤ pending.chunkSeq) && decide (pending.chunkLsn ≤ frontier))
    "Scan frontier would skip a published source chunk"

def availableFrontier (context : ScanContext Row Out) : Option Lsn :=
  context.input.availableSourceFrontierLsn.filter fun frontier => decide (context.input.consumedFrontierLsn < frontier)

def sourceFrontierAfterChunk (context : ScanContext Row Out) (completed : EffectChunk Row) :
    Except Fault (Option Lsn) :=
  match availableFrontier context with
  | none => .ok none
  | some frontier => do
      let nextInput ← chunkAt context.tables.input (completed.chunkSeq + 1)
      return if nextInput.all fun next => decide (frontier < next.chunkLsn) then some frontier else none

structure BootstrapFacts where
  usage : WorkUsage
  firstSequence : Option Nat
  lastSequence : Option Nat
  output : OutputFacts

-- A snapshot row enters the output once.
def bootstrapRow (row : Nat × Out) : EffectRow Out := ⟨1, row.2⟩

def bootstrapRows (rows : Bootstrap Out) : List (EffectRow Out) := rows.map bootstrapRow

-- The page of one bootstrap step: its first row always, more while they fit.
def bootstrapPage (spec : ScanSpec Row Out) (budget : WorkBudget) (output : OutputState Out) (bootstrap : Bootstrap Out)
    (nextSequence : Nat) : Bootstrap Out :=
  let maxRows := min (min budget.maxInputRows budget.maxOutputRows) output.targetRows
  let maxBytes := min (min budget.maxInputBytes budget.maxOutputBytes) output.targetBytes
  withinBudget (fun taken => decide (spec.outputBytes (bootstrapRows taken) ≤ maxBytes))
    ((bootstrap.filter fun row => decide (nextSequence ≤ row.1)).take maxRows)

def runBootstrapPrimitive (spec : ScanSpec Row Out) (context : ScanContext Row Out) (nextSequence : Nat)
    (activationLsn : Lsn) : Except Fault (ScanContext Row Out × BootstrapFacts) := do
  let selected := bootstrapPage spec context.budget context.output context.tables.state nextSequence
  let inserted := bootstrapRows selected
  let rows := selected.length
  let bytes := spec.outputBytes inserted
  let output : OutputFacts := if rows = 0 then .none else .data context.output.nextChunkSeq
  let usage : WorkUsage := ⟨rows, bytes, rows, bytes⟩
  usage.validate context.budget
  let remaining := context.tables.state.filter fun row => decide (row.1 ∉ selected.map Prod.fst)
  let context := { context with tables := { context.tables with state := remaining } }
  let facts : BootstrapFacts := ⟨usage, (selected.map Prod.fst).min?, (selected.map Prod.fst).max?, output⟩
  match output with
  | .data chunkSeq => do
      let context ← context.recordOutputAppend (.new chunkSeq) rows bytes activationLsn inserted
      return (context, facts)
  | _ => return (context, facts)

def firstBootstrapSequence (bootstrap : Bootstrap Out) (atOrAfter : Nat) : Option Nat :=
  ((bootstrap.filter fun row => decide (atOrAfter ≤ row.1)).map Prod.fst).min?

-- Moves the bootstrap cursor; `true` when the spool is used up.
def advanceBootstrap (context : ScanContext Row Out) (continuation : ScanContinuation) (nextSequence : Nat)
    (facts : BootstrapFacts) : Except Fault (ScanContext Row Out × Bool) :=
  match facts.firstSequence, facts.lastSequence with
  | none, none =>
      if facts.usage.inputRows = 0 then .ok (context, true)
      else .error (.failed "Scan bootstrap primitive returned an invalid cursor")
  | some first, some last =>
      if first = nextSequence ∧ last + 1 = nextSequence + facts.usage.inputRows then
        match firstBootstrapSequence context.tables.state (last + 1) with
        | none => .ok (context, true)
        | some remaining => do
            refuse (decide (remaining ≠ last + 1)) "Scan bootstrap relation has a sequence gap"
            let context ← replaceScanContinuation context (some continuation)
              { continuation with nextBootstrapSeq := some remaining }
            return (context, false)
      else .error (.failed "Scan bootstrap primitive returned an invalid cursor")
  | _, _ => .error (.failed "Scan bootstrap primitive returned an invalid cursor")

def stepBootstrap (spec : ScanSpec Row Out) (context : ScanContext Row Out) (continuation : ScanContinuation) :
    Except Fault (ScanContext Row Out × StepReceipt) :=
  match continuation.nextBootstrapSeq with
  | none => .error (.failed "Scan bootstrap continuation omitted its cursor")
  | some nextSequence => do
      let activationLsn := context.input.activationLsn
      let (context, facts) ← runBootstrapPrimitive spec context nextSequence activationLsn
      let (context, completed) ← advanceBootstrap context continuation nextSequence facts
      let context ←
        if completed then
          replaceScanContinuation context (some continuation)
            { phase := .snapshotFrontier
              inputStreamId := continuation.inputStreamId
              pendingFrontierLsn := some activationLsn }
        else .ok context
      context.transitionFacts .admitted ⟨facts.usage, facts.usage.inputRows, facts.output⟩

def stepSnapshotFrontier (context : ScanContext Row Out) (continuation : ScanContinuation) :
    Except Fault (ScanContext Row Out × StepReceipt) :=
  match continuation.pendingFrontierLsn with
  | none => .error (.failed "Scan snapshot frontier omitted its LSN")
  | some frontier => do
      refuse (decide (frontier ≠ context.input.activationLsn)
          || decide (context.input.consumedFrontierLsn ≠ context.input.activationLsn))
        "Scan snapshot frontier does not match its activation boundary"
      let context ← context.appendFrontier frontier
      let context ← context.replaceContinuationCas (some continuation) none "Scan"
      let receipt ← context.transition .frontier {}
      return (context, receipt)

def stepAvailableSourceFrontier (context : ScanContext Row Out) : Except Fault (ScanContext Row Out × StepReceipt) :=
  match availableFrontier context with
  | none => .error (.failed "runnable Scan has neither a chunk nor a source frontier")
  | some frontier => do
      assertFrontierSkipsNoSourceChunk context frontier
      let context ← context.appendFrontier frontier
      let context ← context.advanceInput context.input.nextChunkSeq frontier {}
      let receipt ← context.transition .frontier {}
      return (context, receipt)

def stepScanFrontier (context : ScanContext Row Out) (frontier : Lsn) :
    Except Fault (ScanContext Row Out × StepReceipt) := do
  refuse (decide (frontier ≤ context.input.consumedFrontierLsn)
      || context.input.availableSourceFrontierLsn.all fun available => decide (available < frontier))
    "Scan frontier continuation is outside the published frontier"
  assertFrontierSkipsNoSourceChunk context frontier
  let context ← context.appendFrontier frontier
  let context ← context.advanceInput context.input.nextChunkSeq frontier {}
  let context ← deleteContinuation context true
  let receipt ← context.transition .frontier {}
  return (context, receipt)

-- The page of one transform step. The predicate of a Scan is TRUE, so either
-- all of its rows pass or none does.
def transformPage (spec : ScanSpec Row Out) (budget : WorkBudget) (output : OutputState Out)
    (rows : List (EffectRow Row)) (emitRows : Bool) : List (EffectRow Row) :=
  let maxOutputRows := min budget.maxOutputRows output.targetRows
  let maxOutputBytes := min budget.maxOutputBytes output.targetBytes
  let bounded := withinBudget (fun taken => decide (spec.sourceBytes taken ≤ budget.maxInputBytes))
    (rows.take budget.maxInputRows)
  if emitRows then
    withinBudget (fun taken => decide (taken.length ≤ maxOutputRows)
      && decide (spec.outputBytes (taken.map spec.emit) ≤ maxOutputBytes)) bounded
  else bounded

structure TransformFacts where
  usage : WorkUsage
  firstOrdinal : Nat
  lastOrdinal : Nat
  output : OutputFacts

def runTransformPrimitive (spec : ScanSpec Row Out) (context : ScanContext Row Out) (chunk : EffectChunk Row)
    (rowOrdinal : Nat) (emitRows : Bool) : Except Fault (ScanContext Row Out × TransformFacts) := do
  let pending := (chunk.payload.take chunk.rowCount).drop rowOrdinal
  let selected := transformPage spec context.budget context.output pending emitRows
  refuse selected.isEmpty "database returned NULL first input ordinal"
  let inserted := if emitRows then selected.map spec.emit else []
  let emitted := inserted.length
  let outputBytes := spec.outputBytes inserted
  let output : OutputFacts := if emitted = 0 then .none else .data context.output.nextChunkSeq
  let usage : WorkUsage := ⟨selected.length, spec.sourceBytes selected, emitted, outputBytes⟩
  usage.validate context.budget
  refuse (decide (min context.budget.maxOutputRows context.output.targetRows < emitted)
      || (decide (1 < emitted) && decide (min context.budget.maxOutputBytes context.output.targetBytes < outputBytes)))
    "linear primitive exceeded its stream target"
  let facts : TransformFacts := ⟨usage, rowOrdinal, rowOrdinal + selected.length - 1, output⟩
  match output with
  | .data chunkSeq => do
      let context ← context.recordOutputAppend (.new chunkSeq) emitted outputBytes chunk.chunkLsn inserted
      return (context, facts)
  | _ => return (context, facts)

def dataContinuation (streamId chunkSeq rowOrdinal : Nat) : ScanContinuation where
  phase := .data
  inputStreamId := streamId
  inputChunkSeq := some chunkSeq
  nextRowOrdinal := some rowOrdinal

def frontierContinuation (streamId : Nat) (frontier : Lsn) : ScanContinuation where
  phase := .sourceFrontier
  inputStreamId := streamId
  pendingFrontierLsn := some frontier

-- The end of a data step: a cursor inside the chunk, or the chunk is done.
def finishTransform (context : ScanContext Row Out) (hadContinuation : Bool) (chunk : EffectChunk Row)
    (rowOrdinal nextRow : Nat) : Except Fault (ScanContext Row Out) :=
  let streamId := context.input.streamId
  if nextRow < chunk.rowCount then
    replaceScanContinuation context
      (if hadContinuation then some (dataContinuation streamId chunk.chunkSeq rowOrdinal) else none)
      (dataContinuation streamId chunk.chunkSeq nextRow)
  else if nextRow = chunk.rowCount then do
    let context ← deleteContinuation context hadContinuation
    let context ← match ← sourceFrontierAfterChunk context chunk with
      | some frontier => replaceScanContinuation context none (frontierContinuation streamId frontier)
      | none => .ok context
    context.advanceInput (chunk.chunkSeq + 1) context.input.consumedFrontierLsn ⟨chunk.rowCount, chunk.payloadBytes, 0, 0⟩
  else .error (.failed "linear primitive advanced beyond its input chunk")

def stepDataTransform (spec : ScanSpec Row Out) (context : ScanContext Row Out) (hadContinuation : Bool)
    (chunk : EffectChunk Row) (rowOrdinal : Nat) : Except Fault (ScanContext Row Out × StepReceipt) := do
  refuse (decide (chunk.rowCount ≤ rowOrdinal)) "linear continuation row is outside its input chunk"
  refuse (decide (chunk.chunkSeq ≠ context.input.nextChunkSeq)) "linear chunk is not at the consumer cursor"
  if rowOrdinal = 0 then payloadFacts spec context.input.streamId chunk
  let emitRows := decide (context.input.activationLsn < chunk.chunkLsn)
  let (context, facts) ← runTransformPrimitive spec context chunk rowOrdinal emitRows
  refuse (decide (facts.firstOrdinal ≠ rowOrdinal)) "linear primitive did not start at its continuation"
  let context ← finishTransform context hadContinuation chunk rowOrdinal (facts.lastOrdinal + 1)
  context.transitionFacts .process { usage := facts.usage, output := facts.output }

-- No phase but Data can be left here, and only Data names a chunk.
def stepNextChunk (spec : ScanSpec Row Out) (context : ScanContext Row Out) (continuation : Option ScanContinuation) :
    Except Fault (ScanContext Row Out × StepReceipt) := do
  match ← chunkAt context.tables.input context.input.nextChunkSeq with
  | none => do
      refuse continuation.isSome "Scan continuation references a missing input chunk"
      stepAvailableSourceFrontier context
  | some chunk => do
      refuse (decide (chunk.chunkKind ≠ .data)) "source stream contains a frontier chunk"
      refuse (continuation.any fun saved => decide (saved.inputChunkSeq ≠ some chunk.chunkSeq))
        "Scan continuation is not at its input cursor"
      stepDataTransform spec context continuation.isSome chunk ((continuation.bind ScanContinuation.nextRowOrdinal).getD 0)

def stepSaved (spec : ScanSpec Row Out) (context : ScanContext Row Out) (saved : ScanContinuation) :
    Except Fault (ScanContext Row Out × StepReceipt) :=
  match saved.phase with
  | .bootstrap => stepBootstrap spec context saved
  | .snapshotFrontier => stepSnapshotFrontier context saved
  | .sourceFrontier =>
      match saved.pendingFrontierLsn with
      | none => .error (.failed "Scan frontier continuation omitted its LSN")
      | some frontier => stepScanFrontier context frontier
  | .data => stepNextChunk spec context (some saved)

def executeScan (spec : ScanSpec Row Out) (context : ScanContext Row Out) :
    Except Fault (ScanContext Row Out × StepReceipt) := do
  refuse (decide (context.input.sourceOid ≠ some spec.sourceOid))
    "Scan source OID does not match its source stream"
  let continuation := context.tables.continuation
  let context ← context.bindContinuationAuthority continuation.isSome
  match continuation with
  | none => stepNextChunk spec context none
  | some saved => do
      refuse (decide (saved.inputStreamId ≠ context.input.streamId)) "Scan continuation references another input stream"
      validateScanContinuation saved
      stepSaved spec context saved

def stepScan (spec : ScanSpec Row Out) (tables : ScanTables Row Out) (key : ConsumerKey) (budget : WorkBudget) :
    Except Fault (ScanTables Row Out) :=
  runKernel [.admitted, .process, .frontier] true (executeScan spec) tables key budget

end Shiba.Linear
