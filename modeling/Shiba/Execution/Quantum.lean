import Shiba.Execution.Admission
import Shiba.Execution.Context

set_option autoImplicit false

namespace Shiba.Execution

open Shiba.Stream

def WorkUsage.isEmpty (usage : WorkUsage) : Bool :=
  decide (usage.inputRows = 0) && decide (usage.inputBytes = 0) && decide (usage.outputRows = 0)
    && decide (usage.outputBytes = 0)

def checkedUsage (a b : Nat) (dimension : String) : Except Fault Nat :=
  match checkedU64 (a + b) with
  | none => .error (.failed s!"quantum {dimension} usage overflow")
  | some total => .ok total

def WorkUsage.checkedAdd (usage other : WorkUsage) : Except Fault WorkUsage := do
  let inputRows ← checkedUsage usage.inputRows other.inputRows "input-row"
  let inputBytes ← checkedUsage usage.inputBytes other.inputBytes "input-byte"
  let outputRows ← checkedUsage usage.outputRows other.outputRows "output-row"
  let outputBytes ← checkedUsage usage.outputBytes other.outputBytes "output-byte"
  return ⟨inputRows, inputBytes, outputRows, outputBytes⟩

-- WorkQuantum::new asserts a positive number of transitions.
structure WorkQuantum where
  budget : WorkBudget
  used : WorkUsage := {}
  transitions : Nat := 0
  maxTransitions : Nat
  transitionsPositive : 0 < maxTransitions

namespace WorkQuantum

-- Every dimension of the budget has something left.
def Open (quantum : WorkQuantum) : Prop :=
  quantum.transitions < quantum.maxTransitions ∧ quantum.used.inputRows < quantum.budget.maxInputRows ∧
    quantum.used.inputBytes < quantum.budget.maxInputBytes ∧ quantum.used.outputRows < quantum.budget.maxOutputRows ∧
    quantum.used.outputBytes < quantum.budget.maxOutputBytes

instance (quantum : WorkQuantum) : Decidable quantum.Open := inferInstanceAs (Decidable (_ ∧ _))

def left (quantum : WorkQuantum) (isOpen : quantum.Open) : WorkBudget where
  maxInputRows := quantum.budget.maxInputRows - quantum.used.inputRows
  maxInputBytes := quantum.budget.maxInputBytes - quantum.used.inputBytes
  maxOutputRows := quantum.budget.maxOutputRows - quantum.used.outputRows
  maxOutputBytes := quantum.budget.maxOutputBytes - quantum.used.outputBytes
  inputRowsPositive := Nat.sub_pos_of_lt isOpen.2.1
  inputBytesPositive := Nat.sub_pos_of_lt isOpen.2.2.1
  outputRowsPositive := Nat.sub_pos_of_lt isOpen.2.2.2.1
  outputBytesPositive := Nat.sub_pos_of_lt isOpen.2.2.2.2

def remaining (quantum : WorkQuantum) : Option WorkBudget :=
  if isOpen : quantum.Open then some (quantum.left isOpen) else none

def record (quantum : WorkQuantum) (usage : WorkUsage) : Except Fault WorkQuantum := do
  refuse (decide (quantum.maxTransitions ≤ quantum.transitions)) "work quantum exceeded its transition budget"
  let used ← quantum.used.checkedAdd usage
  return { quantum with used, transitions := quantum.transitions + 1 }

end WorkQuantum

-- `yielded` is the source's Yield.
inductive StepOutcome where
  | progress
  | yielded
  | blocked
  | idle
deriving DecidableEq, Repr

inductive TransactionResult where
  | committed
  | notCommitted
deriving DecidableEq, Repr

structure StepExecution where
  outcome : StepOutcome
  usage : WorkUsage
  transaction : TransactionResult
deriving DecidableEq, Repr

def StepOutcome.isCommit (outcome : StepOutcome) : Bool := decide (outcome = .progress) || decide (outcome = .yielded)

def StepOutcome.text : StepOutcome → String
  | .progress => "Progress"
  | .yielded => "Yield"
  | .blocked => "Blocked"
  | .idle => "Idle"

namespace StepExecution

def new (outcome : StepOutcome) (usage : WorkUsage) : StepExecution := ⟨outcome, usage, .committed⟩

def empty (outcome : StepOutcome) : StepExecution := ⟨outcome, {}, .notCommitted⟩

def validate (execution : StepExecution) : Except Fault Unit :=
  match execution.transaction with
  | .committed =>
      refuse (!execution.outcome.isCommit) s!"committed step returned non-committed outcome {execution.outcome.text}"
  | .notCommitted => refuse execution.outcome.isCommit s!"non-committed step returned {execution.outcome.text}"

end StepExecution

section Kernel

variable {Row Out Cont State : Type}

-- runKernel with the execution that KernelRunner::run returns.
def executeKernel (phases : List KernelPhase) (fromSource : Bool)
    (kernel : StepContext Row Out Cont State → Except Fault (StepContext Row Out Cont State × StepReceipt))
    (key : ConsumerKey) (tables : StageTables Row Out Cont State) (budget : WorkBudget) :
    Except Fault (StageTables Row Out Cont State × StepExecution) := do
  match ← begin tables key budget with
  | .blocked => return (tables, .empty .blocked)
  | .idle => return (tables, .empty .idle)
  | .ready context => do
      refuse (decide (context.input.producer.isSource ≠ fromSource)) "kernel input 0 does not match its stream contract"
      let (stepped, receipt) ← kernel context
      refuse (decide (receipt.phase ∉ phases)) s!"kernel does not support the {receipt.phase.text} lifecycle phase"
      let tables ← stepped.commit receipt
      return (tables, .new (if receipt.completion = .continuing then .yielded else .progress) receipt.usage)

end Kernel

end Shiba.Execution
