import Shiba.Sink.Runtime

set_option autoImplicit false

namespace Shiba.Execution

-- What a bounded keyset page reports.
structure PageFacts where
  usage : WorkUsage
  lastRowId : Option Int
  complete : Bool
deriving DecidableEq, Repr

def PageFacts.validate (facts : PageFacts) (budget : WorkBudget) : Except Fault Unit := do
  facts.usage.validate budget
  refuse (decide (facts.usage.inputRows = 0) && facts.lastRowId.isSome) "empty primitive page returned a row cursor"
  refuse (decide (0 < facts.usage.inputRows) && facts.lastRowId.isNone && !facts.complete)
    "partial primitive page omitted its row cursor"

-- `<` on an Option<i64>: None is below every row id.
def rowIdBelow : Option Int → Option Int → Bool
  | none, none => false
  | none, some _ => true
  | some _, none => false
  | some left, some right => decide (left < right)

end Shiba.Execution

namespace Shiba.TopN

open Shiba.Execution
open Shiba.Sink (InputPosition)

-- `admitted` is the source's Admit.
inductive AfterDrain where
  | admitted (next : InputPosition)
  | finishInput
  | frontier (frontier : InputPosition)
deriving DecidableEq, Repr

structure TopNCursor where
  rowId : Option Int := none
deriving DecidableEq, Repr

def TopNCursor.validate (cursor : TopNCursor) : Except Fault Unit :=
  refuse (cursor.rowId.any fun rowId => decide (rowId ≤ 0)) "TopN cursor is not positive"

-- `repeats` is the source's repeat.
structure TopNDiffCursor where
  rowId : Option Int := none
  repeats : Bool := false
deriving DecidableEq, Repr

def TopNDiffCursor.validate (cursor : TopNDiffCursor) : Except Fault Unit := do
  refuse (cursor.rowId.any fun rowId => decide (rowId ≤ 0)) "TopN Diff cursor is not positive"
  refuse (cursor.repeats && cursor.rowId.isNone) "TopN Diff repeat cursor omitted its row"

structure TopNMachine where
  limit : Nat
  offset : Nat
  withTies : Bool
deriving DecidableEq, Repr

structure SelectionProgress where
  cursor : TopNCursor := {}
  offsetRemaining : Nat
  limitRemaining : Nat
  tieBoundaryRowId : Option Int := none
deriving DecidableEq, Repr

namespace SelectionProgress

def initial (offset limit : Nat) : SelectionProgress := { offsetRemaining := offset, limitRemaining := limit }

def validate (progress : SelectionProgress) (machine : TopNMachine) : Except Fault Unit := do
  progress.cursor.validate
  refuse (progress.tieBoundaryRowId.any fun rowId => decide (rowId ≤ 0)) "TopN tie boundary is not positive"
  refuse (decide (machine.offset < progress.offsetRemaining) || decide (machine.limit < progress.limitRemaining))
    "TopN remaining count exceeds its plan"
  refuse (!machine.withTies && progress.tieBoundaryRowId.isSome) "TopN without WITH TIES stored a tie boundary"
  refuse (progress.tieBoundaryRowId.isSome &&
      (decide (progress.offsetRemaining ≠ 0) || decide (progress.limitRemaining ≠ 0)))
    "TopN tie boundary was stored before OFFSET and LIMIT completed"

end SelectionProgress

inductive DiffLeg where
  | remove
  | add
deriving DecidableEq, Repr

inductive TopNPhase where
  | admitted
  | select (generationId : Nat) (progress : SelectionProgress) (afterDrain : AfterDrain)
  | diff (generationId : Nat) (leg : DiffLeg) (cursor : TopNDiffCursor) (afterDrain : AfterDrain)
  | cleanup (generationId : Nat) (cursor : TopNCursor) (afterDrain : AfterDrain)
  | frontier
deriving DecidableEq, Repr

structure TopNContinuation where
  inputStreamId : Nat
  input : Option InputPosition
  phase : TopNPhase
deriving DecidableEq, Repr

inductive TopNAction where
  | admitted (input : InputPosition)
  | selectCandidates (generationId : Nat) (progress : SelectionProgress)
  | diff (generationId : Nat) (leg : DiffLeg) (cursor : TopNDiffCursor)
  | cleanup (generationId : Nat) (cursor : TopNCursor)
  | forwardFrontier (input : InputPosition)
deriving DecidableEq, Repr

inductive TopNAdmissionTarget where
  | continuing (next : InputPosition)
  | drain (generationId : Nat) (afterDrain : AfterDrain)
  | idle
deriving DecidableEq, Repr

structure TopNAdmission where
  facts : PrimitiveFacts
  target : TopNAdmissionTarget
deriving DecidableEq, Repr

structure TopNPage where
  facts : PrimitiveFacts
  lastRowId : Option Int
  complete : Bool
deriving DecidableEq, Repr

structure TopNDiffPage extends TopNPage where
  repeatCursor : Bool
deriving DecidableEq, Repr

structure TopNSelection where
  page : TopNPage
  progress : SelectionProgress
deriving DecidableEq, Repr

inductive TopNActionResult where
  | admitted (admission : TopNAdmission)
  | selected (selection : TopNSelection)
  | diffed (page : TopNDiffPage)
  | cleaned (page : TopNPage)
  | frontierForwarded (facts : PrimitiveFacts)
deriving DecidableEq, Repr

structure TopNTransition where
  continuation : Option TopNContinuation
  facts : PrimitiveFacts
deriving DecidableEq, Repr

def validateInput (input : InputPosition) : Except Fault Unit :=
  refuse (decide (input.streamId = 0) || decide (input.chunkSeq = 0)) "TopN input position is invalid"

def validateGenerationId (generationId : Nat) : Except Fault Unit :=
  refuse (decide (generationId = 0)) "TopN candidate generation id is not positive"

def validateAfterDrain (inputStreamId : Nat) (after : AfterDrain) : Except Fault Unit := do
  refuse (decide (inputStreamId = 0)) "TopN Drain target has an invalid input stream"
  match after with
  | .admitted next => do
      validateInput next
      refuse (decide (next.streamId ≠ inputStreamId)) "TopN Drain target changed its input stream"
  | .frontier frontier => do
      validateInput frontier
      refuse (decide (frontier.streamId ≠ inputStreamId) || decide (frontier.rowOrdinal ≠ 0)) "TopN frontier target is invalid"
  | .finishInput => return ()

def validateNoExternalOutput (facts : PrimitiveFacts) : Except Fault Unit :=
  refuse (decide (facts.output ≠ .none) || decide (facts.usage.outputRows ≠ 0) || decide (facts.usage.outputBytes ≠ 0))
    "TopN internal phase reported external output"

-- Every Drain continuation carries its target.
def phaseAfterDrain : TopNPhase → Except Fault AfterDrain
  | .select _ _ afterDrain | .diff _ _ _ afterDrain | .cleanup _ _ afterDrain => .ok afterDrain
  | .admitted | .frontier => .error (.failed "TopN phase has no Drain completion target")

def TopNPage.pageFacts (page : TopNPage) : PageFacts := ⟨page.facts.usage, page.lastRowId, page.complete⟩

def TopNPage.validate (page : TopNPage) (previous : TopNCursor) (budget : WorkBudget) (permitsOutput : Bool) :
    Except Fault Unit := do
  page.facts.validate budget
  page.pageFacts.validate budget
  refuse (page.lastRowId.any fun rowId => decide (rowId ≤ 0)) "TopN page returned a non-positive cursor"
  refuse (!page.complete && (decide (page.facts.usage.inputRows = 0) || page.lastRowId.isNone))
    "partial TopN page made no resumable progress"
  refuse (!page.complete && rowIdBelow page.lastRowId previous.rowId) "TopN page moved its cursor backwards"
  if permitsOutput then do
    refuse page.facts.output.isFrontier "TopN diff emitted a frontier"
    refuse (decide (page.facts.usage.inputRows < page.facts.usage.outputRows)) "TopN diff emitted more effects than rows compared"
  else validateNoExternalOutput page.facts

def TopNDiffPage.validate (page : TopNDiffPage) (previous : TopNDiffCursor) (budget : WorkBudget) : Except Fault Unit := do
  page.facts.validate budget
  page.toTopNPage.pageFacts.validate budget
  refuse (page.lastRowId.any fun rowId => decide (rowId ≤ 0)) "TopN Diff page returned a non-positive cursor"
  refuse (page.repeatCursor && (page.complete || page.lastRowId.isNone)) "TopN Diff residual has no resumable row"
  refuse (!page.complete && (decide (page.facts.usage.inputRows = 0) || page.lastRowId.isNone))
    "partial TopN Diff page made no resumable progress"
  refuse (!page.complete &&
      (rowIdBelow page.lastRowId previous.rowId || (decide (page.lastRowId = previous.rowId) && !previous.repeats)))
    "TopN Diff page moved its cursor backwards"
  refuse page.facts.output.isFrontier "TopN Diff emitted a frontier"
  refuse (decide (page.facts.usage.inputRows < page.facts.usage.outputRows)) "TopN Diff emitted more effects than rows compared"

def validateSelectionProgress (machine : TopNMachine) (previous next : SelectionProgress) (complete : Bool) :
    Except Fault Unit := do
  refuse (decide (previous.offsetRemaining < next.offsetRemaining) || decide (previous.limitRemaining < next.limitRemaining))
    "TopN selection counters moved backwards"
  refuse (decide (0 < next.offsetRemaining) &&
      (decide (next.limitRemaining ≠ previous.limitRemaining) || decide (next.tieBoundaryRowId ≠ previous.tieBoundaryRowId)))
    "TopN selected rows before OFFSET completed"
  refuse (previous.tieBoundaryRowId.isSome && decide (next.tieBoundaryRowId ≠ previous.tieBoundaryRowId))
    "TopN changed its persisted tie boundary"
  refuse (!complete && next.cursor.rowId.isNone) "resumable TopN selection omitted its keyset cursor"
  refuse (!complete && machine.withTies && decide (next.limitRemaining = 0) && next.tieBoundaryRowId.isNone)
    "resumable WITH TIES selection omitted its boundary row"
  refuse (!complete && !machine.withTies && decide (next.limitRemaining = 0))
    "TopN without ties continued after LIMIT completed"

namespace TopNMachine

def validateContinuation (machine : TopNMachine) (continuation : TopNContinuation) : Except Fault Unit := do
  refuse (decide (continuation.inputStreamId = 0)) "TopN continuation has an invalid input stream"
  match continuation.phase with
  | .admitted | .frontier =>
      match continuation.input with
      | none => .error (.failed "TopN input phase omitted its cursor")
      | some input => do
          validateInput input
          refuse (decide (input.streamId ≠ continuation.inputStreamId)) "TopN input phase changed its stream"
          refuse (decide (continuation.phase = .frontier) && decide (input.rowOrdinal ≠ 0))
            "TopN frontier continuation has a row cursor"
  | .select generationId progress afterDrain => do
      validateGenerationId generationId
      progress.validate machine
      refuse (decide (machine.limit = 0)) "zero-limit TopN cannot persist a selection phase"
      refuse continuation.input.isSome "TopN Drain continuation retained an input cursor"
      validateAfterDrain continuation.inputStreamId afterDrain
  | .diff generationId _ cursor afterDrain => do
      validateGenerationId generationId
      cursor.validate
      refuse continuation.input.isSome "TopN Drain continuation retained an input cursor"
      validateAfterDrain continuation.inputStreamId afterDrain
  | .cleanup generationId cursor afterDrain => do
      validateGenerationId generationId
      cursor.validate
      refuse continuation.input.isSome "TopN Drain continuation retained an input cursor"
      validateAfterDrain continuation.inputStreamId afterDrain

def action (machine : TopNMachine) (continuation : TopNContinuation) : Except Fault TopNAction := do
  machine.validateContinuation continuation
  match continuation.phase with
  | .admitted =>
      match continuation.input with
      | none => .error (.failed "TopN Admit continuation omitted its input")
      | some input => return .admitted input
  | .select generationId progress _ => return .selectCandidates generationId progress
  | .diff generationId leg cursor _ => return .diff generationId leg cursor
  | .cleanup generationId cursor _ => return .cleanup generationId cursor
  | .frontier =>
      match continuation.input with
      | none => .error (.failed "TopN frontier continuation omitted its input")
      | some input => return .forwardFrontier input

def applyAdmission (machine : TopNMachine) (input : InputPosition) (admission : TopNAdmission) (budget : WorkBudget) :
    Except Fault TopNTransition := do
  admission.facts.validate budget
  validateNoExternalOutput admission.facts
  refuse (decide (admission.facts.usage.inputRows = 0)) "TopN admission made no bounded input progress"
  match admission.target with
  | .continuing next => do
      validateInput next
      refuse (decide (next.streamId ≠ input.streamId) || decide (next.chunkSeq ≠ input.chunkSeq) ||
          decide (next.rowOrdinal ≤ input.rowOrdinal)) "TopN admission continuation did not advance its page"
      let continuation : TopNContinuation := ⟨input.streamId, some next, .admitted⟩
      machine.validateContinuation continuation
      return ⟨some continuation, admission.facts⟩
  | .drain generationId afterDrain => do
      validateGenerationId generationId
      validateAfterDrain input.streamId afterDrain
      let phase : TopNPhase :=
        if machine.limit = 0 then .diff generationId .remove {} afterDrain
        else .select generationId (.initial machine.offset machine.limit) afterDrain
      let continuation : TopNContinuation := ⟨input.streamId, none, phase⟩
      machine.validateContinuation continuation
      return ⟨some continuation, admission.facts⟩
  | .idle => return ⟨none, admission.facts⟩

def applySelection (machine : TopNMachine) (continuation : TopNContinuation) (generationId : Nat) (previous : SelectionProgress)
    (selected : TopNSelection) (budget : WorkBudget) : Except Fault TopNTransition := do
  selected.page.validate previous.cursor budget false
  selected.progress.validate machine
  refuse (!selected.page.complete && decide (selected.progress.cursor.rowId ≠ selected.page.lastRowId))
    "TopN selection cursor disagrees with its bounded page"
  validateSelectionProgress machine previous selected.progress selected.page.complete
  let afterDrain ← phaseAfterDrain continuation.phase
  let phase : TopNPhase :=
    if selected.page.complete then .diff generationId .remove {} afterDrain
    else .select generationId selected.progress afterDrain
  return ⟨some ⟨continuation.inputStreamId, none, phase⟩, selected.page.facts⟩

def applyDiff (continuation : TopNContinuation) (generationId : Nat) (leg : DiffLeg) (cursor : TopNDiffCursor)
    (page : TopNDiffPage) (budget : WorkBudget) : Except Fault TopNTransition := do
  page.validate cursor budget
  let afterDrain ← phaseAfterDrain continuation.phase
  let phase : TopNPhase :=
    if page.complete then
      match leg with
      | .remove => .diff generationId .add {} afterDrain
      | .add => .cleanup generationId {} afterDrain
    else .diff generationId leg ⟨page.lastRowId, page.repeatCursor⟩ afterDrain
  return ⟨some ⟨continuation.inputStreamId, none, phase⟩, page.facts⟩

def applyCleanup (continuation : TopNContinuation) (generationId : Nat) (cursor : TopNCursor) (page : TopNPage)
    (budget : WorkBudget) : Except Fault TopNTransition := do
  page.validate cursor budget false
  let afterDrain ← phaseAfterDrain continuation.phase
  let next : Option TopNContinuation :=
    if page.complete then
      match afterDrain with
      | .admitted next => some ⟨continuation.inputStreamId, some next, .admitted⟩
      | .finishInput => none
      | .frontier frontier => some ⟨continuation.inputStreamId, some frontier, .frontier⟩
    else some ⟨continuation.inputStreamId, none, .cleanup generationId ⟨page.lastRowId⟩ afterDrain⟩
  return ⟨next, page.facts⟩

def applyFrontier (facts : PrimitiveFacts) (budget : WorkBudget) : Except Fault TopNTransition := do
  facts.validateProtocol budget .frontier .finished
  refuse (!facts.output.isFrontier || decide (facts.usage.inputRows ≠ 0) || decide (facts.usage.inputBytes ≠ 0))
    "TopN frontier commit is inconsistent"
  return ⟨none, facts⟩

def apply (machine : TopNMachine) (continuation : TopNContinuation) (result : TopNActionResult) (budget : WorkBudget) :
    Except Fault TopNTransition := do
  match ← machine.action continuation, result with
  | .admitted input, .admitted admission => machine.applyAdmission input admission budget
  | .selectCandidates generationId progress, .selected selected =>
      machine.applySelection continuation generationId progress selected budget
  | .diff generationId leg cursor, .diffed page => applyDiff continuation generationId leg cursor page budget
  | .cleanup generationId cursor, .cleaned page => applyCleanup continuation generationId cursor page budget
  | .forwardFrontier _, .frontierForwarded facts => applyFrontier facts budget
  | _, _ => .error (.failed "database returned facts for another TopN phase")

end TopNMachine

end Shiba.TopN
