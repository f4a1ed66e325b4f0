import Shiba.Library.Copies
import Shiba.Linear.Exact

set_option autoImplicit false

namespace Shiba.Sink

open Copies Shiba.Stream Shiba.Execution Shiba.Execution.StepContext Shiba.Linear

-- The aggregate budget of a page; it also bounds the number of its rows.
structure WorkQuantum where
  budget : WorkBudget
  used : WorkUsage := {}
  transitions : Nat := 0
  maxTransitions : Nat

namespace WorkQuantum

def remaining (quantum : WorkQuantum) : Option WorkBudget :=
  if quantum.maxTransitions ≤ quantum.transitions then none
  else if room : quantum.used.inputRows < quantum.budget.maxInputRows ∧
      quantum.used.inputBytes < quantum.budget.maxInputBytes ∧
      quantum.used.outputRows < quantum.budget.maxOutputRows ∧
      quantum.used.outputBytes < quantum.budget.maxOutputBytes then
    some
      { maxInputRows := quantum.budget.maxInputRows - quantum.used.inputRows
        maxInputBytes := quantum.budget.maxInputBytes - quantum.used.inputBytes
        maxOutputRows := quantum.budget.maxOutputRows - quantum.used.outputRows
        maxOutputBytes := quantum.budget.maxOutputBytes - quantum.used.outputBytes
        inputRowsPositive := Nat.sub_pos_of_lt room.1
        inputBytesPositive := Nat.sub_pos_of_lt room.2.1
        outputRowsPositive := Nat.sub_pos_of_lt room.2.2.1
        outputBytesPositive := Nat.sub_pos_of_lt room.2.2.2 }
  else none

def record (quantum : WorkQuantum) (usage : WorkUsage) : Except Fault WorkQuantum := do
  refuse (decide (quantum.maxTransitions ≤ quantum.transitions)) "work quantum exceeded its transition budget"
  return { quantum with
    used := ⟨quantum.used.inputRows + usage.inputRows, quantum.used.inputBytes + usage.inputBytes,
      quantum.used.outputRows + usage.outputRows, quantum.used.outputBytes + usage.outputBytes⟩
    transitions := quantum.transitions + 1 }

end WorkQuantum

structure InputPosition where
  streamId : Nat
  chunkSeq : Nat
  rowOrdinal : Nat
deriving DecidableEq, Repr

def InputPosition.new (streamId chunkSeq rowOrdinal : Nat) : Except Fault InputPosition := do
  refuse (decide (streamId = 0) || decide (chunkSeq = 0)) "input position contains an invalid identifier"
  return ⟨streamId, chunkSeq, rowOrdinal⟩

structure SinkContinuation where
  position : InputPosition
  remainingWeight : Option Int
  persisted : Bool
deriving DecidableEq, Repr

-- The columns of the typed continuation.
structure ContinuationRow where
  inputStreamId : Nat
  inputChunkSeq : Nat
  rowOrdinal : Nat
  remainingWeight : Option Int
deriving DecidableEq, Repr

structure EffectHead where
  rowOrdinal : Nat
  weight : Int
  rowBytes : Nat
deriving DecidableEq, Repr

structure SinkAction where
  rowOrdinal : Nat
  appliedWeight : Int
deriving DecidableEq, Repr

structure WeightPage where
  appliedWeight : Int
  remainingWeight : Option Int
  usage : WorkUsage
deriving DecidableEq, Repr

-- The result columns of an input row, and octet_length(record_send(row)).
-- Result rows are told apart as IS NOT DISTINCT FROM tells them apart.
structure SinkSpec (Row Out : Type) where
  mapping : Row → Out
  inputLength : Row → Nat

variable {Row Out : Type}

-- A Sink's input is measured as a Scan of no source would be.
def SinkSpec.scanPlaceholder (spec : SinkSpec Row Out) : ScanSpec Row Out where
  sourceOid := 0
  project := spec.mapping
  sourceLength := spec.inputLength
  outputLength := fun _ => 0

def SinkSpec.rowBytes (spec : SinkSpec Row Out) (row : EffectRow Row) : Nat := spec.inputLength row.rowValue + 8

-- The state is the result relation, in ctid order. A Sink has no output stream:
-- no row could be in it, and `noOutput` stands in its place.
abbrev SinkTables (Row Out : Type) := StageTables Row Empty ContinuationRow (List Out)

abbrev SinkContext (Row Out : Type) := StepContext Row Empty ContinuationRow (List Out)

def noOutput : StreamHistory Empty := ⟨freshStream ⟨1, 1, 1, 1, 1, 1, 1, 1⟩ 0 (.operator 0 0), none, []⟩

def continuationArguments (continuation : SinkContinuation) : ContinuationRow :=
  ⟨continuation.position.streamId, continuation.position.chunkSeq, continuation.position.rowOrdinal,
    continuation.remainingWeight⟩

def loadContinuation (context : SinkContext Row Out) : Except Fault SinkContinuation :=
  match context.tables.continuation with
  | none => do
      let position ← InputPosition.new context.input.streamId context.input.nextChunkSeq 0
      return ⟨position, none, false⟩
  | some row => do
      refuse (decide (row.inputStreamId ≠ context.input.streamId) || decide (row.remainingWeight = some 0))
        "Sink continuation contains invalid durable state"
      let position ← InputPosition.new row.inputStreamId row.inputChunkSeq row.rowOrdinal
      return ⟨position, row.remainingWeight, true⟩

def replaceContinuation (context : SinkContext Row Out) (expected : SinkContinuation)
    (next : Option SinkContinuation) : Except Fault (SinkContext Row Out) :=
  context.replaceContinuationCas (if expected.persisted then some (continuationArguments expected) else none)
    (next.map continuationArguments) "Sink"

def validatePayloadMetadata (spec : SinkSpec Row Out) (chunk : EffectChunk Row) : Except Fault Unit :=
  refuse (decide (chunk.payload.length ≠ chunk.rowCount)
      || decide (spec.scanPlaceholder.sourceBytes chunk.payload ≠ chunk.payloadBytes))
    "Sink payload does not match immutable chunk metadata"

def headsFrom (spec : SinkSpec Row Out) (ordinal : Nat) (rows : List (EffectRow Row)) : List EffectHead :=
  (rows.zipIdx ordinal).map fun item => ⟨item.2, item.1.weight, spec.rowBytes item.1⟩

def effectHeads (spec : SinkSpec Row Out) (chunk : EffectChunk Row) (firstRowOrdinal maxRows : Nat) :
    Except Fault (List EffectHead) := do
  let rows := (chunk.payload.drop firstRowOrdinal).take maxRows
  refuse rows.isEmpty "Sink effect position has no payload suffix"
  let heads := headsFrom spec firstRowOrdinal rows
  refuse (heads.any fun head => decide (head.weight = 0) || decide (head.rowBytes = 0))
    "Sink effect page is non-contiguous or invalid"
  return heads

def planWeightPage (effectWeight : Int) (savedRemainingWeight : Option Int) (rowBytes : Nat) (budget : WorkBudget) :
    Except Fault WeightPage := do
  refuse (decide (effectWeight = 0) || decide (rowBytes = 0)) "Sink cannot page a zero effect"
  let remaining := savedRemainingWeight.getD effectWeight
  refuse (decide (remaining = 0) || decide (remaining.sign ≠ effectWeight.sign)
    || decide (effectWeight.natAbs < remaining.natAbs)) "Sink remaining weight is not a suffix of its effect"
  let byteCopies := if budget.maxOutputBytes < rowBytes then 1 else budget.maxOutputBytes / rowBytes
  let copies := min (min (min remaining.natAbs budget.maxOutputRows) byteCopies) bigintMax
  refuse (decide (copies = 0)) "positive Sink budgets selected no result mutation"
  let appliedWeight : Int := if 0 < remaining then copies else -copies
  let rest := remaining - appliedWeight
  return ⟨appliedWeight, if rest = 0 then none else some rest, ⟨1, rowBytes, copies, rowBytes * copies⟩⟩

-- The effect rows a page has planned so far, and where it goes on.
structure PagePlan where
  actions : List SinkAction
  quantum : WorkQuantum
  next : Option SinkContinuation

-- The loop of consume_data over the effect heads.
def planHeads (position : InputPosition) (rows : Nat) : List EffectHead → PagePlan → Except Fault PagePlan
  | [], plan => .ok plan
  | head :: heads, plan =>
      match plan.next, plan.quantum.remaining with
      | none, _ => .error (.failed "Sink page continued after its chunk ended")
      | some current, remaining => do
          refuse (decide (current.position.rowOrdinal ≠ head.rowOrdinal)) "Sink page continuation skipped an effect row"
          match remaining with
          | none => .error (.failed "Sink quantum exhausted before its first effect")
          | some remaining =>
              if plan.quantum.used ≠ {} ∧
                  (remaining.maxInputBytes < head.rowBytes ∨ remaining.maxOutputBytes < head.rowBytes) then
                return plan
              else do
                let page ← planWeightPage head.weight current.remainingWeight head.rowBytes remaining
                let quantum ← plan.quantum.record page.usage
                let actions := plan.actions ++ [⟨head.rowOrdinal, page.appliedWeight⟩]
                match page.remainingWeight with
                | some remainingWeight => do
                    let here ← InputPosition.new position.streamId position.chunkSeq head.rowOrdinal
                    return ⟨actions, quantum, some ⟨here, some remainingWeight, true⟩⟩
                | none =>
                    if head.rowOrdinal + 1 = rows then return ⟨actions, quantum, none⟩
                    else do
                      let there ← InputPosition.new position.streamId position.chunkSeq (head.rowOrdinal + 1)
                      let plan : PagePlan := ⟨actions, quantum, some ⟨there, none, true⟩⟩
                      if quantum.remaining.isNone then return plan else planHeads position rows heads plan

-- The actions joined with the payload.
def effectsOf (spec : SinkSpec Row Out) (chunk : EffectChunk Row) (actions : List SinkAction) : List (Out × Int) :=
  actions.filterMap fun action =>
    chunk.payload[action.rowOrdinal]?.map fun row => (spec.mapping row.rowValue, action.appliedWeight)

section Mutation

variable [DecidableEq Out]

def isVictim (negativeActions : List (Out × Int × Int)) (target : Out × Nat) : Bool :=
  negativeActions.any fun effect =>
    decide (effect.1 = target.1) && decide (effect.2.1 ≤ (target.2 : Int))
      && decide ((target.2 : Int) < effect.2.1 + effect.2.2)

-- One statement: the rows it deletes are ranked in the relation as it was
-- before the rows it inserts.
def mutateResultPage (result : List Out) (actions : List SinkAction) (effects : List (Out × Int)) :
    Except Fault (List Out × Nat) := do
  refuse (actions.isEmpty || actions.any fun action => decide (action.appliedWeight = 0))
    "Sink result page is empty or contains a zero weight"
  let inserted := expanded (effects.filter fun effect => decide (0 < effect.2))
  let negativeActions := placed (retractions effects)
  let deleted := (ranked result).filter (isVictim negativeActions)
  let kept := (ranked result).filter fun target => !isVictim negativeActions target
  return (kept.map Prod.fst ++ inserted, inserted.length + deleted.length)

end Mutation

def advanceCompletedChunk (context : SinkContext Row Out) (chunk : EffectChunk Row) (newFrontierLsn : Lsn) :
    Except Fault (SinkContext Row Out) := do
  refuse (decide (chunk.chunkSeq ≠ context.input.nextChunkSeq)
    || decide (newFrontierLsn < context.input.consumedFrontierLsn))
    "Sink completed chunk does not match its input cursor"
  context.advanceInput (context.input.nextChunkSeq + 1) newFrontierLsn ⟨chunk.rowCount, chunk.payloadBytes, 0, 0⟩

def sinkReceipt (context : SinkContext Row Out) (phase : KernelPhase) (usage : WorkUsage) (hasContinuation : Bool) :
    StepReceipt :=
  { context.stepReceipt phase usage hasContinuation with outputStream := false }

-- StepContext::transition without an output stream.
def transition (context : SinkContext Row Out) (phase : KernelPhase) (usage : WorkUsage) : Except Fault StepReceipt := do
  usage.validate context.budget
  match context.continuationPresence with
  | none => .error (.failed "kernel transition was created before continuation authority was bound")
  | some hasContinuation => do
      let receipt := sinkReceipt context phase usage hasContinuation
      receipt.validate
      return receipt

def consumeFrontier (context : SinkContext Row Out) (continuation : SinkContinuation) (chunk : EffectChunk Row) :
    Except Fault (SinkContext Row Out × StepReceipt) := do
  refuse (decide (continuation.position.rowOrdinal ≠ 0) || continuation.remainingWeight.isSome)
    "Sink frontier has an invalid continuation"
  refuse (decide (chunk.rowCount ≠ 0) || decide (chunk.payloadBytes ≠ 0)) "Sink frontier contains payload"
  let context ← advanceCompletedChunk context chunk chunk.chunkLsn
  let context ← replaceContinuation context continuation none
  let receipt ← transition context .frontier {}
  return (context, receipt)

def checkMutated (planned mutated : Nat) : Except Fault Unit :=
  refuse (decide (mutated ≠ planned)) s!"Sink expected {planned} result mutations, database returned {mutated}"

-- The end of consume_data: the cursor, the continuation and the receipt.
def finishPage (context : SinkContext Row Out) (continuation : SinkContinuation) (chunk : EffectChunk Row)
    (next : Option SinkContinuation) (usage : WorkUsage) : Except Fault (SinkContext Row Out × StepReceipt) := do
  let context ← match next with
    | none => advanceCompletedChunk context chunk context.input.consumedFrontierLsn
    | some _ => pure context
  let context ← replaceContinuation context continuation next
  let context := context.withStateRows usage.outputRows
  let receipt ← transition context .process usage
  return (context, receipt)

variable [DecidableEq Out]

def consumeData (spec : SinkSpec Row Out) (context : SinkContext Row Out) (continuation : SinkContinuation)
    (chunk : EffectChunk Row) : Except Fault (SinkContext Row Out × StepReceipt) := do
  let firstOrdinal := continuation.position.rowOrdinal
  refuse (decide (chunk.rowCount ≤ firstOrdinal)) "Sink continuation is outside its data chunk"
  if firstOrdinal = 0 then validatePayloadMetadata spec chunk
  let heads ← effectHeads spec chunk firstOrdinal context.budget.maxInputRows
  let quantum : WorkQuantum := { budget := context.budget, maxTransitions := context.budget.maxInputRows }
  let plan ← planHeads continuation.position chunk.rowCount heads ⟨[], quantum, some continuation⟩
  refuse plan.actions.isEmpty "Sink page selected no effect rows"
  let usage := plan.quantum.used
  let (result, mutated) ← mutateResultPage context.tables.state plan.actions (effectsOf spec chunk plan.actions)
  checkMutated usage.outputRows mutated
  finishPage { context with tables := { context.tables with state := result } } continuation chunk plan.next usage

def step (spec : SinkSpec Row Out) (context : SinkContext Row Out) :
    Except Fault (SinkContext Row Out × StepReceipt) := do
  let continuation ← loadContinuation context
  let context ← context.bindContinuationAuthority continuation.persisted
  refuse (decide (continuation.position.chunkSeq ≠ context.input.nextChunkSeq))
    "Sink continuation is not at its input cursor"
  match ← chunkAt context.tables.input context.input.nextChunkSeq with
  | none => .error (.failed "Sink continuation or pending input references no chunk")
  | some chunk =>
      match chunk.chunkKind with
      | .frontier => consumeFrontier context continuation chunk
      | .data => consumeData spec context continuation chunk

def stepSink (spec : SinkSpec Row Out) (tables : SinkTables Row Out) (key : ConsumerKey) (budget : WorkBudget) :
    Except Fault (SinkTables Row Out) :=
  runKernel [.process, .frontier] false (step spec) tables key budget

end Shiba.Sink
