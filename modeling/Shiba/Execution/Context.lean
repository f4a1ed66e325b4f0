import Shiba.Execution.Contract
import Shiba.Stream.Completeness

set_option autoImplicit false

namespace Shiba.Execution

open Shiba.Stream

-- The catalog rows of a stage with one input and one output stream: both
-- streams, its checkpoint, its typed continuation and its state relation.
structure StageTables (Row Out Cont State : Type) where
  input : StreamHistory Row
  output : StreamHistory Out
  revision : Nat := 0
  hasContinuation : Bool
  continuation : Option Cont
  state : State
deriving DecidableEq

structure InputState where
  streamId : Nat
  producer : Producer
  nextChunkSeq : Nat
  availableChunkSeq : Nat
  activationLsn : Lsn
  consumedFrontierLsn : Lsn
  availableSourceFrontierLsn : Option Lsn
deriving DecidableEq, Repr

def InputState.hasPending (input : InputState) : Bool :=
  decide (input.nextChunkSeq < input.availableChunkSeq)
    || input.availableSourceFrontierLsn.any fun frontier => decide (input.consumedFrontierLsn < frontier)

def InputState.sourceOid (input : InputState) : Option Oid :=
  match input.producer with
  | .source _ sourceOid => some sourceOid
  | .operator _ _ => none

-- `payload` is what the primitives stored under the pending sequence.
structure PendingDataChunk (Out : Type) where
  sequence : Nat
  rows : Nat
  bytes : Nat
  lsn : Lsn
  payload : List (EffectRow Out)
deriving DecidableEq, Repr

structure OutputState (Out : Type) where
  streamId : Nat
  nextChunkSeq : Nat
  targetRows : Nat
  targetBytes : Nat
  latestDataLsn : Option Lsn
  publishedFrontierLsn : Option Lsn
  pendingDataChunk : Option (PendingDataChunk Out) := none
deriving DecidableEq, Repr

structure StepContext (Row Out Cont State : Type) where
  tables : StageTables Row Out Cont State
  key : ConsumerKey
  budget : WorkBudget
  expectedRevision : Nat
  checkpointHadContinuation : Bool
  continuationPresence : Option Bool := none
  continuationChanged : Bool := false
  inputAdvanced : Bool := false
  frontierOutput : Option Nat := none
  stateRows : Nat := 0
  input : InputState
  output : OutputState Out

inductive StepContextStart (Row Out Cont State : Type) where
  | blocked
  | idle
  | ready (context : StepContext Row Out Cont State)

variable {Row Out Cont State : Type}

def inputState (history : StreamHistory Row) (consumer : StreamConsumer) : InputState where
  streamId := history.stream.streamId
  producer := history.stream.producer
  nextChunkSeq := consumer.nextChunkSeq
  availableChunkSeq := history.stream.nextChunkSeq
  activationLsn := consumer.activationLsn
  consumedFrontierLsn := consumer.consumedFrontierLsn
  availableSourceFrontierLsn := if history.stream.isSource then history.published else none

def outputState (stream : EffectStream Out) : OutputState Out where
  streamId := stream.streamId
  nextChunkSeq := stream.nextChunkSeq
  targetRows := stream.targetChunkRows
  targetBytes := stream.targetChunkBytes
  latestDataLsn := stream.latestDataLsn
  publishedFrontierLsn := stream.publishedFrontierLsn

def begin (tables : StageTables Row Out Cont State) (key : ConsumerKey) (budget : WorkBudget) :
    Except Fault (StepContextStart Row Out Cont State) :=
  match tables.input.stream.findConsumer key with
  | none => .error (.failed s!"operator stage {key.consumerStageId} locked 1 streams, expected 2")
  | some consumer =>
      let input := inputState tables.input consumer
      if tables.output.stream.backpressured then .ok .blocked
      else if !tables.hasContinuation && !input.hasPending then .ok .idle
      else
        .ok (.ready
          { tables, key, budget, input
            expectedRevision := tables.revision
            checkpointHadContinuation := tables.hasContinuation
            output := outputState tables.output.stream })

namespace StepContext

def bindContinuationAuthority (context : StepContext Row Out Cont State) (persisted : Bool) :
    Except Fault (StepContext Row Out Cont State) := do
  refuse (decide (context.checkpointHadContinuation ≠ persisted))
    "checkpoint and typed continuation authority disagree"
  refuse (decide (context.continuationPresence = some (!persisted))) "typed continuation authority was bound twice"
  return { context with continuationPresence := some persisted }

def prepareContinuationReplace (context : StepContext Row Out Cont State) (expected : Bool) : Except Fault Unit :=
  match context.continuationPresence with
  | some current => refuse (decide (current ≠ expected)) "typed continuation replacement used stale authority"
  | none => .error (.failed "typed continuation was mutated before it was bound")

-- DELETE of the expected row, then INSERT of the next one.
def replaceContinuationCas [DecidableEq Cont] (context : StepContext Row Out Cont State) (old next : Option Cont)
    (owner : String) : Except Fault (StepContext Row Out Cont State) := do
  context.prepareContinuationReplace old.isSome
  refuse (old.isSome && decide (context.tables.continuation ≠ old)) s!"{owner} continuation compare-and-set failed"
  let kept := if old.isSome then none else context.tables.continuation
  refuse (next.isSome && kept.isSome) s!"{owner} continuation insert failed"
  return { context with
    tables := { context.tables with continuation := next.or kept }
    continuationPresence := some next.isSome
    continuationChanged := context.continuationChanged || old.isSome || next.isSome }

def clearContinuationLocked (context : StepContext Row Out Cont State) (owner : String) :
    Except Fault (StepContext Row Out Cont State) := do
  context.prepareContinuationReplace true
  refuse context.tables.continuation.isNone s!"{owner} continuation clear failed"
  return { context with
    tables := { context.tables with continuation := none }
    continuationPresence := some false
    continuationChanged := true }

def recordFrontierOutput (context : StepContext Row Out Cont State) (chunkSeq : Nat) (lsn : Lsn) :
    Except Fault (StepContext Row Out Cont State) := do
  refuse context.frontierOutput.isSome "step cannot publish more than one frontier output"
  refuse (context.output.pendingDataChunk.isSome || decide (chunkSeq ≠ context.output.nextChunkSeq))
    "published frontier changed the shared output cursor"
  refuse (reachedBy context.output.publishedFrontierLsn lsn || behind context.output.latestDataLsn lsn)
    "published frontier is not causally advancing"
  refuse (decide (context.output.nextChunkSeq = bigintMax)) "output chunk sequence overflow"
  return { context with
    output := { context.output with
      nextChunkSeq := context.output.nextChunkSeq + 1, publishedFrontierLsn := some lsn }
    frontierOutput := some chunkSeq }

def appendFrontier (context : StepContext Row Out Cont State) (frontierLsn : Lsn) :
    Except Fault (StepContext Row Out Cont State) := do
  let (output, outcome) ← appendHistory context.tables.output context.output.nextChunkSeq .frontier 0 0 frontierLsn []
  match outcome with
  | .appended sequence => do
      refuse (decide (sequence ≠ context.output.nextChunkSeq)) "frontier append returned an unexpected chunk sequence"
      recordFrontierOutput { context with tables := { context.tables with output } } sequence frontierLsn
  | other => .error (.failed s!"locked output stream returned frontier append outcome {other.text}")

def advanceInput (context : StepContext Row Out Cont State) (newNextChunkSeq : Nat) (newFrontierLsn : Lsn)
    (consumedRange : WorkUsage) : Except Fault (StepContext Row Out Cont State) := do
  let input := context.input
  refuse (decide (newNextChunkSeq < input.nextChunkSeq) || decide (newFrontierLsn < input.consumedFrontierLsn)
      || (decide (newNextChunkSeq = input.nextChunkSeq) && decide (newFrontierLsn = input.consumedFrontierLsn)))
    "input cursor did not advance"
  let chunkLimit := max (newNextChunkSeq - input.nextChunkSeq) 1
  refuse (decide (2147483647 < chunkLimit)) "input chunk advance exceeds integer"
  let stream ← advanceEffectStreamConsumer context.tables.input.stream context.tables.input.published context.key
    ⟨input.nextChunkSeq, newNextChunkSeq, input.consumedFrontierLsn, newFrontierLsn, chunkLimit,
      consumedRange.inputRows, consumedRange.inputBytes⟩
  return { context with
    tables := { context.tables with input := { context.tables.input with stream } }
    inputAdvanced := true }

inductive OutputAppendTarget where
  | new (sequence : Nat)
  | extend (sequence rowOffset previousBytes : Nat)
deriving DecidableEq, Repr

def recordOutputAppend (context : StepContext Row Out Cont State) (target : OutputAppendTarget) (rows bytes : Nat)
    (lsn : Lsn) (payload : List (EffectRow Out)) : Except Fault (StepContext Row Out Cont State) := do
  refuse (decide (rows = 0) || decide (bytes = 0)) "data output append must contain rows and bytes"
  refuse context.frontierOutput.isSome "step cannot append data after a frontier output"
  refuse (reachedBy context.output.publishedFrontierLsn lsn) "data output causal LSN did not advance its frontier"
  refuse (behind context.output.latestDataLsn lsn) "data output causal LSN moved backwards"
  match target with
  | .new sequence => do
      refuse (decide (sequence ≠ context.output.nextChunkSeq)) "new output append changed its expected sequence"
      refuse (decide (context.output.nextChunkSeq = bigintMax)) "output chunk sequence overflow"
      return { context with
        output := { context.output with
          nextChunkSeq := context.output.nextChunkSeq + 1
          pendingDataChunk := some ⟨sequence, rows, bytes, lsn, payload⟩ } }
  | .extend sequence rowOffset previousBytes =>
      match context.output.pendingDataChunk with
      | some pending => do
          refuse (decide (pending.sequence ≠ sequence) || decide (pending.rows ≠ rowOffset)
            || decide (pending.bytes ≠ previousBytes)) "extended output append changed its open chunk"
          return { context with
            output := { context.output with
              pendingDataChunk := some ⟨sequence, pending.rows + rows, pending.bytes + bytes, max pending.lsn lsn,
                pending.payload ++ payload⟩ } }
      | none => .error (.failed "extended output append changed its open chunk")

def publishPendingOutput (context : StepContext Row Out Cont State) : Except Fault (StepContext Row Out Cont State) :=
  match context.output.pendingDataChunk with
  | none => .ok context
  | some pending => do
      let (output, outcome) ← appendHistory context.tables.output pending.sequence .data pending.rows pending.bytes
        pending.lsn pending.payload
      refuse (decide (outcome ≠ .appended pending.sequence)) "pending output publication was blocked or inconsistent"
      return { context with tables := { context.tables with output } }

def outputFacts (context : StepContext Row Out Cont State) : OutputFacts :=
  match context.frontierOutput with
  | some sequence => .frontier sequence
  | none =>
      match context.output.pendingDataChunk with
      | some pending => .data pending.sequence
      | none => .none

def progressWitness (context : StepContext Row Out Cont State) : ProgressWitness where
  inputAdvanced := context.inputAdvanced
  stateChanged := decide (0 < context.stateRows)
  outputAppended := context.outputFacts.isData
  frontierAdvanced := context.outputFacts.isFrontier
  continuationChanged := context.continuationChanged
  actionCompleted := !context.inputAdvanced && decide (context.stateRows = 0) && decide (context.outputFacts = .none)
    && !context.continuationChanged

def stepReceipt (context : StepContext Row Out Cont State) (phase : KernelPhase) (usage : WorkUsage)
    (hasContinuation : Bool) : StepReceipt where
  phase := phase
  outputStream := true
  completion := if hasContinuation then .continuing else .finished
  usage := usage
  progress := context.progressWitness
  stateRows := context.stateRows
  output := context.outputFacts
  continuation := if hasContinuation then (if context.continuationChanged then .replace else .keep) else .remove

def transition (context : StepContext Row Out Cont State) (phase : KernelPhase) (usage : WorkUsage) :
    Except Fault StepReceipt := do
  usage.validate context.budget
  match context.continuationPresence with
  | none => .error (.failed "kernel transition was created before continuation authority was bound")
  | some hasContinuation => do
      let receipt := context.stepReceipt phase usage hasContinuation
      receipt.validate
      return receipt

def transitionFacts (context : StepContext Row Out Cont State) (phase : KernelPhase) (facts : PrimitiveFacts) :
    Except Fault (StepContext Row Out Cont State × StepReceipt) := do
  facts.validateProtocol context.budget phase
    (if context.continuationPresence = some true then .continuing else .finished)
  let context := { context with stateRows := context.stateRows + facts.stateRows }
  let receipt ← context.transition phase facts.usage
  refuse (decide (receipt.output ≠ facts.output)) "primitive output facts disagree with the step context"
  return (context, receipt)

def commit (context : StepContext Row Out Cont State) (receipt : StepReceipt) :
    Except Fault (StageTables Row Out Cont State) := do
  receipt.validate
  let hasContinuation := decide (receipt.completion = .continuing)
  receipt.usage.validate context.budget
  refuse (decide (context.continuationPresence ≠ some hasContinuation))
    "kernel transition disagrees with typed continuation authority"
  let context ← context.publishPendingOutput
  refuse (decide (context.tables.revision ≠ context.expectedRevision)) "operator checkpoint compare-and-set failed"
  return { context.tables with revision := context.tables.revision + 1, hasContinuation }

end StepContext

-- KernelRunner::run over the step of a kernel with one input. A blocked or idle
-- start leaves everything as it was.
def runKernel (phases : List KernelPhase) (fromSource : Bool)
    (kernel : StepContext Row Out Cont State → Except Fault (StepContext Row Out Cont State × StepReceipt))
    (tables : StageTables Row Out Cont State) (key : ConsumerKey) (budget : WorkBudget) :
    Except Fault (StageTables Row Out Cont State) := do
  match ← begin tables key budget with
  | .blocked => return tables
  | .idle => return tables
  | .ready context => do
      refuse (decide (context.input.producer.isSource ≠ fromSource)) "kernel input 0 does not match its stream contract"
      let (stepped, receipt) ← kernel context
      refuse (decide (receipt.phase ∉ phases)) s!"kernel does not support the {receipt.phase.text} lifecycle phase"
      stepped.commit receipt

end Shiba.Execution
