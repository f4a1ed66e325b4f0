import Shiba.Postgres

set_option autoImplicit false

namespace Shiba.Execution

-- WorkBudget::new asserts that every limit is positive.
structure WorkBudget where
  maxInputRows : Nat
  maxInputBytes : Nat
  maxOutputRows : Nat
  maxOutputBytes : Nat
  inputRowsPositive : 0 < maxInputRows := by decide
  inputBytesPositive : 0 < maxInputBytes := by decide
  outputRowsPositive : 0 < maxOutputRows := by decide
  outputBytesPositive : 0 < maxOutputBytes := by decide

structure WorkUsage where
  inputRows : Nat := 0
  inputBytes : Nat := 0
  outputRows : Nat := 0
  outputBytes : Nat := 0
deriving DecidableEq, Repr

-- A single indivisible item is the only byte-budget exception.
def validateDimension (rows bytes maxRows maxBytes : Nat) (name : String) : Except Fault Unit := do
  refuse (decide (maxRows < rows)) s!"{name} primitive exceeded its row budget"
  refuse (decide (maxBytes < bytes) && decide (rows ≠ 1)) s!"{name} primitive exceeded its byte budget"

def WorkUsage.validate (usage : WorkUsage) (budget : WorkBudget) : Except Fault Unit := do
  validateDimension usage.inputRows usage.inputBytes budget.maxInputRows budget.maxInputBytes "input"
  validateDimension usage.outputRows usage.outputBytes budget.maxOutputRows budget.maxOutputBytes "output"

-- `admitted` is the source's Admit.
inductive KernelPhase where
  | admitted
  | process
  | drain
  | frontier
deriving DecidableEq, Repr

def KernelPhase.text : KernelPhase → String
  | .admitted => "Admit"
  | .process => "Process"
  | .drain => "Drain"
  | .frontier => "Frontier"

-- `continuing` is the source's Continue.
inductive KernelCompletion where
  | continuing
  | finished
deriving DecidableEq, Repr

inductive ContinuationDelta where
  | keep
  | replace
  | remove
deriving DecidableEq, Repr

inductive OutputFacts where
  | none
  | data (chunkSeq : Nat)
  | frontier (chunkSeq : Nat)
deriving DecidableEq, Repr

namespace OutputFacts

def isData : OutputFacts → Bool
  | .data _ => true
  | _ => false

def isFrontier : OutputFacts → Bool
  | .frontier _ => true
  | _ => false

end OutputFacts

structure PrimitiveFacts where
  usage : WorkUsage := {}
  stateRows : Nat := 0
  output : OutputFacts := .none
deriving DecidableEq, Repr

def PrimitiveFacts.validate (facts : PrimitiveFacts) (budget : WorkBudget) : Except Fault Unit := do
  facts.usage.validate budget
  match facts.output with
  | .none => refuse (decide (0 < facts.usage.outputRows)) "primitive emitted rows without an output chunk"
  | .data chunkSeq => do
      refuse (decide (chunkSeq = 0)) "primitive returned a non-positive output chunk"
      refuse (decide (facts.usage.outputRows = 0)) "data chunk contains no output rows"
  | .frontier chunkSeq => do
      refuse (decide (chunkSeq = 0)) "primitive returned a non-positive frontier chunk"
      refuse (decide (facts.usage.outputRows ≠ 0) || decide (facts.usage.outputBytes ≠ 0))
        "frontier chunk contains output rows"

def PrimitiveFacts.validateProtocol (facts : PrimitiveFacts) (budget : WorkBudget) (phase : KernelPhase)
    (completion : KernelCompletion) : Except Fault Unit := do
  facts.validate budget
  refuse (decide (phase ≠ .frontier) && facts.output.isFrontier) "non-frontier primitive emitted a frontier chunk"
  refuse (decide (phase = .frontier) && facts.output.isData) "frontier primitive emitted a data chunk"
  refuse (facts.output.isFrontier && decide (completion ≠ .finished)) "frontier output left a continuation behind"

structure ProgressWitness where
  inputAdvanced : Bool
  stateChanged : Bool
  outputAppended : Bool
  frontierAdvanced : Bool
  continuationChanged : Bool
  actionCompleted : Bool
deriving DecidableEq, Repr

def ProgressWitness.hasDurableProgress (progress : ProgressWitness) : Bool :=
  progress.inputAdvanced || progress.stateChanged || progress.outputAppended || progress.frontierAdvanced
    || progress.continuationChanged

structure StepReceipt where
  phase : KernelPhase
  outputStream : Bool
  completion : KernelCompletion
  usage : WorkUsage
  progress : ProgressWitness
  stateRows : Nat
  output : OutputFacts
  continuation : ContinuationDelta
deriving DecidableEq, Repr

def StepReceipt.validate (receipt : StepReceipt) : Except Fault Unit := do
  match receipt.output with
  | .none =>
      refuse (receipt.outputStream && decide (0 < receipt.usage.outputRows))
        "step receipt emitted rows without an output effect"
  | .data _ => do
      refuse (!receipt.outputStream) "sink step reported an effect-stream output"
      refuse (decide (receipt.usage.outputRows = 0)) "step receipt reported a data output without rows"
  | .frontier _ => do
      refuse (!receipt.outputStream) "sink step reported a frontier output"
      refuse (decide (receipt.usage.outputRows ≠ 0) || decide (receipt.usage.outputBytes ≠ 0))
        "step receipt frontier contains output rows"
  refuse (decide (receipt.completion = .continuing)
      && (!receipt.progress.hasDurableProgress || receipt.progress.actionCompleted))
    "continuing operator step did not make durable progress"
  refuse (decide (receipt.continuation = .remove) && decide (receipt.completion ≠ .finished))
    "continuing operator step removed its continuation"
  refuse (decide (receipt.completion = .finished) && decide (receipt.continuation ≠ .remove))
    "finished operator step did not remove its continuation"
  refuse (receipt.progress.outputAppended && decide (receipt.output = .none))
    "output progress witness omitted its output effect"
  refuse (receipt.progress.frontierAdvanced && !receipt.output.isFrontier)
    "frontier progress witness omitted its frontier effect"
  refuse (decide (0 < receipt.stateRows) && !receipt.progress.stateChanged)
    "state effects were omitted from the progress witness"
  refuse (receipt.progress.stateChanged && decide (receipt.stateRows = 0))
    "state progress witness omitted its state effect"
  refuse (receipt.progress.continuationChanged && decide (receipt.continuation = .keep))
    "continuation progress omitted its replacement effect"
  refuse (decide (receipt.continuation = .replace) && !receipt.progress.continuationChanged)
    "continuation replacement omitted its progress witness"
  refuse (decide (receipt.phase = .frontier) && receipt.output.isData) "frontier phase emitted a data output"
  refuse (decide (receipt.phase ≠ .frontier) && receipt.output.isFrontier) "non-frontier phase emitted a frontier output"

end Shiba.Execution
