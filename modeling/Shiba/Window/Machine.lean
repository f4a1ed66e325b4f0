import Shiba.TopN.Machine

set_option autoImplicit false

namespace Shiba.Window

open Shiba.Execution
open Shiba.Sink (InputPosition)
open Shiba.TopN (DiffLeg)

-- `admitted` is the source's Admit.
inductive AfterPartitions where
  | admitted (next : InputPosition)
  | finishInput
  | frontier (frontier : InputPosition)
deriving DecidableEq, Repr

structure WindowCursor where
  rowId : Option Int := none
deriving DecidableEq, Repr

def WindowCursor.validate (cursor : WindowCursor) : Except Fault Unit :=
  refuse (cursor.rowId.any fun rowId => decide (rowId ≤ 0)) "Window cursor is not positive"

-- `repeats` is the source's repeat.
structure WindowDiffCursor where
  rowId : Option Int := none
  repeats : Bool := false
deriving DecidableEq, Repr

def WindowDiffCursor.validate (cursor : WindowDiffCursor) : Except Fault Unit := do
  refuse (cursor.rowId.any fun rowId => decide (rowId ≤ 0)) "Window Diff cursor is not positive"
  refuse (cursor.repeats && cursor.rowId.isNone) "Window Diff repeat cursor omitted its row"

structure WindowFoldCursor where
  outputOrdinal : Int
  lastFrameOrdinal : Option Int := none
  readyToFinalize : Bool := false
deriving DecidableEq, Repr

def WindowFoldCursor.validate (cursor : WindowFoldCursor) : Except Fault Unit :=
  refuse (decide (cursor.outputOrdinal ≤ 0) || cursor.lastFrameOrdinal.any fun ordinal => decide (ordinal ≤ 0))
    "Window aggregate fold cursor is not positive"

-- Cleanup visits one work relation per step.
structure WindowCleanupCursor where
  relationOrdinal : Nat := 0
  row : WindowCursor := {}
deriving DecidableEq, Repr

inductive WindowPhase where
  | admitted
  | enumerate (partitionQueueId : Nat) (cursor : WindowCursor) (afterPartitions : AfterPartitions)
  | peers (partitionQueueId : Nat) (cursor : WindowCursor) (afterPartitions : AfterPartitions)
  | frames (partitionQueueId : Nat) (cursor : WindowCursor) (afterPartitions : AfterPartitions)
  | foldAggregate (partitionQueueId functionOrdinal : Nat) (cursor : WindowFoldCursor) (afterPartitions : AfterPartitions)
  | evaluate (partitionQueueId functionOrdinal : Nat) (cursor : WindowCursor) (afterPartitions : AfterPartitions)
  | diff (partitionQueueId : Nat) (leg : DiffLeg) (cursor : WindowDiffCursor) (afterPartitions : AfterPartitions)
  | cleanup (partitionQueueId : Nat) (cursor : WindowCleanupCursor) (afterPartitions : AfterPartitions)
  | frontier
deriving DecidableEq, Repr

structure WindowContinuation where
  inputStreamId : Nat
  input : Option InputPosition
  phase : WindowPhase
deriving DecidableEq, Repr

inductive WindowFunctionKind where
  | native
  | aggregate
deriving DecidableEq, Repr

structure WindowMachine where
  functionKinds : List WindowFunctionKind
deriving DecidableEq, Repr

inductive WindowAction where
  | admitted (input : InputPosition)
  | enumerate (partitionQueueId : Nat) (cursor : WindowCursor)
  | buildPeers (partitionQueueId : Nat) (cursor : WindowCursor)
  | buildFrames (partitionQueueId : Nat) (cursor : WindowCursor)
  | foldAggregate (partitionQueueId functionOrdinal : Nat) (cursor : WindowFoldCursor)
  | evaluate (partitionQueueId functionOrdinal : Nat) (cursor : WindowCursor)
  | diff (partitionQueueId : Nat) (leg : DiffLeg) (cursor : WindowDiffCursor)
  | cleanup (partitionQueueId : Nat) (cursor : WindowCleanupCursor)
  | forwardFrontier (input : InputPosition)
deriving DecidableEq, Repr

inductive WindowAdmissionTarget where
  | continuing (next : InputPosition)
  | drain (firstPartitionQueueId : Nat) (afterPartitions : AfterPartitions)
  | idle
deriving DecidableEq, Repr

structure WindowAdmission where
  facts : PrimitiveFacts
  target : WindowAdmissionTarget
deriving DecidableEq, Repr

structure WindowPage where
  facts : PrimitiveFacts
  lastRowId : Option Int
  complete : Bool
deriving DecidableEq, Repr

structure WindowDiffPage extends WindowPage where
  repeatCursor : Bool
deriving DecidableEq, Repr

-- `none` after the last output ordinal of the function.
structure WindowFoldPage where
  facts : PrimitiveFacts
  nextCursor : Option WindowFoldCursor
  workItems : Nat
deriving DecidableEq, Repr

structure WindowCleanup where
  page : WindowPage
  nextPartitionQueueId : Option Nat
deriving DecidableEq, Repr

inductive WindowActionResult where
  | admitted (admission : WindowAdmission)
  | enumerated (page : WindowPage)
  | peersBuilt (page : WindowPage)
  | framesBuilt (page : WindowPage)
  | aggregateFolded (page : WindowFoldPage)
  | evaluated (page : WindowPage)
  | diffed (page : WindowDiffPage)
  | cleaned (cleanup : WindowCleanup)
  | frontierForwarded (facts : PrimitiveFacts)
deriving DecidableEq, Repr

structure WindowTransition where
  continuation : Option WindowContinuation
  facts : PrimitiveFacts
deriving DecidableEq, Repr

inductive WindowInternalStage where
  | enumerate
  | peers
  | frames
deriving DecidableEq, Repr

def WindowInternalStage.phase (stage : WindowInternalStage) (partitionQueueId : Nat) (cursor : WindowCursor)
    (afterPartitions : AfterPartitions) : WindowPhase :=
  match stage with
  | .enumerate => .enumerate partitionQueueId cursor afterPartitions
  | .peers => .peers partitionQueueId cursor afterPartitions
  | .frames => .frames partitionQueueId cursor afterPartitions

def foldWorkItemCap : Nat := 64

def cleanupRelationCount : Nat := 4

def phaseAfterPartitions : WindowPhase → Except Fault AfterPartitions
  | .enumerate _ _ after | .peers _ _ after | .frames _ _ after | .foldAggregate _ _ _ after | .evaluate _ _ _ after
  | .diff _ _ _ after | .cleanup _ _ after => .ok after
  | .admitted | .frontier => .error (.failed "Window phase has no partition completion target")

def validateInput (input : InputPosition) : Except Fault Unit :=
  refuse (decide (input.streamId = 0) || decide (input.chunkSeq = 0)) "Window input position is invalid"

def validateQueueId (queueId : Nat) : Except Fault Unit :=
  refuse (decide (queueId = 0)) "Window partition queue id is not positive"

def validateAfterPartitions (inputStreamId : Nat) (after : AfterPartitions) : Except Fault Unit := do
  refuse (decide (inputStreamId = 0)) "Window partition target has an invalid input stream"
  match after with
  | .admitted next => do
      validateInput next
      refuse (decide (next.streamId ≠ inputStreamId)) "Window admission target changed its input stream"
  | .frontier frontier => do
      validateInput frontier
      refuse (decide (frontier.streamId ≠ inputStreamId) || decide (frontier.rowOrdinal ≠ 0)) "Window frontier target is invalid"
  | .finishInput => return ()

def validateNoExternalOutput (facts : PrimitiveFacts) : Except Fault Unit :=
  refuse (decide (facts.output ≠ .none) || decide (facts.usage.outputRows ≠ 0) || decide (facts.usage.outputBytes ≠ 0))
    "Window internal phase reported external output"

def WindowPage.pageFacts (page : WindowPage) : PageFacts := ⟨page.facts.usage, page.lastRowId, page.complete⟩

def WindowPage.validate (page : WindowPage) (previous : WindowCursor) (budget : WorkBudget) (permitsOutput : Bool) :
    Except Fault Unit := do
  page.facts.validate budget
  page.pageFacts.validate budget
  refuse (page.lastRowId.any fun rowId => decide (rowId ≤ 0)) "Window page returned a non-positive cursor"
  refuse (!page.complete && (decide (page.facts.usage.inputRows = 0) || page.lastRowId.isNone))
    "partial Window page made no resumable progress"
  refuse (!page.complete && rowIdBelow page.lastRowId previous.rowId) "Window page moved its cursor backwards"
  if permitsOutput then do
    refuse page.facts.output.isFrontier "Window diff emitted a frontier"
    refuse (decide (page.facts.usage.inputRows < page.facts.usage.outputRows)) "Window diff emitted more effects than rows compared"
  else validateNoExternalOutput page.facts

def WindowDiffPage.validate (page : WindowDiffPage) (previous : WindowDiffCursor) (budget : WorkBudget) : Except Fault Unit := do
  page.facts.validate budget
  page.toWindowPage.pageFacts.validate budget
  refuse (page.lastRowId.any fun rowId => decide (rowId ≤ 0)) "Window Diff page returned a non-positive cursor"
  refuse (page.repeatCursor && (page.complete || page.lastRowId.isNone)) "Window Diff residual has no resumable row"
  refuse (!page.complete && (decide (page.facts.usage.inputRows = 0) || page.lastRowId.isNone))
    "partial Window Diff page made no resumable progress"
  refuse (!page.complete &&
      (rowIdBelow page.lastRowId previous.rowId || (decide (page.lastRowId = previous.rowId) && !previous.repeats)))
    "Window Diff page moved its cursor backwards"
  refuse page.facts.output.isFrontier "Window Diff emitted a frontier"
  refuse (decide (page.facts.usage.inputRows < page.facts.usage.outputRows)) "Window Diff emitted more effects than rows compared"

-- What an unfinished fold visited of the output ordinal that it stopped at.
def currentVisit (page : WindowFoldPage) (previous next : WindowFoldCursor) : Except Fault Nat :=
  if next.outputOrdinal = previous.outputOrdinal then
    match previous.readyToFinalize, next.readyToFinalize with
    | false, true => .ok 1
    | false, false =>
        if 0 < page.facts.usage.inputRows ∧ next.lastFrameOrdinal.isSome ∧
            rowIdBelow previous.lastFrameOrdinal next.lastFrameOrdinal then .ok 1
        else .error (.failed "partial Window aggregate fold made no resumable progress")
    | true, _ => .error (.failed "partial Window aggregate fold made no resumable progress")
  else .ok (if next.readyToFinalize || next.lastFrameOrdinal.isSome then 1 else 0)

def WindowFoldPage.validate (page : WindowFoldPage) (previous : WindowFoldCursor) (budget : WorkBudget) (permitsOutput : Bool) :
    Except Fault Unit := do
  page.facts.validate budget
  refuse permitsOutput "Window aggregate fold cannot emit an external chunk"
  validateNoExternalOutput page.facts
  refuse (decide (page.workItems = 0) || decide (foldWorkItemCap < page.workItems))
    "Window aggregate fold returned an invalid work-item count"
  match page.nextCursor with
  | none => return ()
  | some next => do
      next.validate
      refuse (decide (next.outputOrdinal < previous.outputOrdinal)) "Window aggregate fold moved its output cursor backwards"
      let completed := (next.outputOrdinal - previous.outputOrdinal).toNat
      let visit ← currentVisit page previous next
      refuse (decide (page.workItems < completed + visit)) "Window aggregate fold skipped an unvisited output ordinal"

namespace WindowMachine

def functionCount (machine : WindowMachine) : Nat := machine.functionKinds.length

def functionKind (machine : WindowMachine) (ordinal : Nat) : Except Fault WindowFunctionKind :=
  match ordinal with
  | 0 => .error (.failed "Window function ordinal is outside its plan")
  | index + 1 =>
      match machine.functionKinds[index]? with
      | some kind => .ok kind
      | none => .error (.failed "Window function ordinal is outside its plan")

def firstFunctionPhase (machine : WindowMachine) (partitionQueueId functionOrdinal : Nat) (afterPartitions : AfterPartitions) :
    Except Fault WindowPhase := do
  match ← machine.functionKind functionOrdinal with
  | .native => return .evaluate partitionQueueId functionOrdinal {} afterPartitions
  | .aggregate => return .foldAggregate partitionQueueId functionOrdinal { outputOrdinal := 1 } afterPartitions

-- The checks that every phase of a drain ends with.
def validateDrain (continuation : WindowContinuation) (afterPartitions : AfterPartitions) : Except Fault Unit := do
  refuse continuation.input.isSome "Window drain continuation retained an input cursor"
  validateAfterPartitions continuation.inputStreamId afterPartitions

def validateContinuation (machine : WindowMachine) (continuation : WindowContinuation) : Except Fault Unit := do
  refuse (decide (continuation.inputStreamId = 0) ||
      continuation.input.any fun input => decide (input.streamId ≠ continuation.inputStreamId))
    "Window continuation has an invalid input stream"
  match continuation.phase with
  | .admitted | .frontier =>
      match continuation.input with
      | none => .error (.failed "Window input phase omitted its cursor")
      | some input => validateInput input
  | .enumerate partitionQueueId cursor afterPartitions | .peers partitionQueueId cursor afterPartitions
  | .frames partitionQueueId cursor afterPartitions => do
      validateQueueId partitionQueueId
      cursor.validate
      validateDrain continuation afterPartitions
  | .diff partitionQueueId _ cursor afterPartitions => do
      validateQueueId partitionQueueId
      cursor.validate
      validateDrain continuation afterPartitions
  | .foldAggregate partitionQueueId functionOrdinal cursor afterPartitions => do
      validateQueueId partitionQueueId
      let kind ← machine.functionKind functionOrdinal
      refuse (decide (kind ≠ .aggregate)) "native Window function entered aggregate fold"
      cursor.validate
      validateDrain continuation afterPartitions
  | .evaluate partitionQueueId functionOrdinal cursor afterPartitions => do
      validateQueueId partitionQueueId
      let kind ← machine.functionKind functionOrdinal
      refuse (decide (kind ≠ .native)) "aggregate Window function entered native evaluation"
      cursor.validate
      validateDrain continuation afterPartitions
  | .cleanup partitionQueueId cursor afterPartitions => do
      validateQueueId partitionQueueId
      refuse (decide (cleanupRelationCount ≤ cursor.relationOrdinal)) "Window cleanup relation ordinal is outside its plan"
      cursor.row.validate
      validateDrain continuation afterPartitions

def action (machine : WindowMachine) (continuation : WindowContinuation) : Except Fault WindowAction := do
  machine.validateContinuation continuation
  match continuation.phase with
  | .admitted =>
      match continuation.input with
      | none => .error (.failed "Window Admit continuation omitted its input")
      | some input => return .admitted input
  | .enumerate partitionQueueId cursor _ => return .enumerate partitionQueueId cursor
  | .peers partitionQueueId cursor _ => return .buildPeers partitionQueueId cursor
  | .frames partitionQueueId cursor _ => return .buildFrames partitionQueueId cursor
  | .foldAggregate partitionQueueId functionOrdinal cursor _ => return .foldAggregate partitionQueueId functionOrdinal cursor
  | .evaluate partitionQueueId functionOrdinal cursor _ => return .evaluate partitionQueueId functionOrdinal cursor
  | .diff partitionQueueId leg cursor _ => return .diff partitionQueueId leg cursor
  | .cleanup partitionQueueId cursor _ => return .cleanup partitionQueueId cursor
  | .frontier =>
      match continuation.input with
      | none => .error (.failed "Window frontier continuation omitted its input")
      | some input => return .forwardFrontier input

def applyAdmission (machine : WindowMachine) (input : InputPosition) (admitted : WindowAdmission) (budget : WorkBudget) :
    Except Fault WindowTransition := do
  admitted.facts.validate budget
  validateNoExternalOutput admitted.facts
  refuse (decide (admitted.facts.usage.inputRows = 0)) "Window admission made no bounded input progress"
  match admitted.target with
  | .continuing next => do
      validateInput next
      refuse (decide (next.streamId ≠ input.streamId) || decide (next.chunkSeq ≠ input.chunkSeq) ||
          decide (next.rowOrdinal ≤ input.rowOrdinal)) "Window admission continuation did not advance its page"
      let continuation : WindowContinuation := ⟨input.streamId, some next, .admitted⟩
      machine.validateContinuation continuation
      return ⟨some continuation, admitted.facts⟩
  | .drain firstPartitionQueueId afterPartitions => do
      validateQueueId firstPartitionQueueId
      validateAfterPartitions input.streamId afterPartitions
      let continuation : WindowContinuation := ⟨input.streamId, none, .enumerate firstPartitionQueueId {} afterPartitions⟩
      machine.validateContinuation continuation
      return ⟨some continuation, admitted.facts⟩
  | .idle => return ⟨none, admitted.facts⟩

def applyInternalPage (machine : WindowMachine) (continuation : WindowContinuation) (partitionQueueId : Nat) (cursor : WindowCursor)
    (page : WindowPage) (stage : WindowInternalStage) (budget : WorkBudget) : Except Fault WindowTransition := do
  page.validate cursor budget false
  let afterPartitions ← phaseAfterPartitions continuation.phase
  let phase ←
    if !page.complete then pure (stage.phase partitionQueueId ⟨page.lastRowId⟩ afterPartitions)
    else match stage with
      | .enumerate => pure (.peers partitionQueueId {} afterPartitions)
      | .peers => pure (.frames partitionQueueId {} afterPartitions)
      | .frames => machine.firstFunctionPhase partitionQueueId 1 afterPartitions
  return ⟨some ⟨continuation.inputStreamId, none, phase⟩, page.facts⟩

-- The phase behind a finished function.
def afterFunction (machine : WindowMachine) (partitionQueueId functionOrdinal : Nat) (afterPartitions : AfterPartitions) :
    Except Fault WindowPhase :=
  if functionOrdinal < machine.functionCount then machine.firstFunctionPhase partitionQueueId (functionOrdinal + 1) afterPartitions
  else .ok (.diff partitionQueueId .remove {} afterPartitions)

def applyAggregateFold (machine : WindowMachine) (continuation : WindowContinuation) (partitionQueueId functionOrdinal : Nat)
    (cursor : WindowFoldCursor) (page : WindowFoldPage) (budget : WorkBudget) : Except Fault WindowTransition := do
  page.validate cursor budget false
  let afterPartitions ← phaseAfterPartitions continuation.phase
  let phase ← match page.nextCursor with
    | some next => pure (.foldAggregate partitionQueueId functionOrdinal next afterPartitions)
    | none => machine.afterFunction partitionQueueId functionOrdinal afterPartitions
  return ⟨some ⟨continuation.inputStreamId, none, phase⟩, page.facts⟩

def applyEvaluation (machine : WindowMachine) (continuation : WindowContinuation) (partitionQueueId functionOrdinal : Nat)
    (cursor : WindowCursor) (page : WindowPage) (budget : WorkBudget) : Except Fault WindowTransition := do
  page.validate cursor budget false
  let afterPartitions ← phaseAfterPartitions continuation.phase
  let phase ←
    if !page.complete then pure (.evaluate partitionQueueId functionOrdinal ⟨page.lastRowId⟩ afterPartitions)
    else machine.afterFunction partitionQueueId functionOrdinal afterPartitions
  return ⟨some ⟨continuation.inputStreamId, none, phase⟩, page.facts⟩

def applyDiff (continuation : WindowContinuation) (partitionQueueId : Nat) (leg : DiffLeg) (cursor : WindowDiffCursor)
    (page : WindowDiffPage) (budget : WorkBudget) : Except Fault WindowTransition := do
  page.validate cursor budget
  let afterPartitions ← phaseAfterPartitions continuation.phase
  let phase : WindowPhase :=
    if !page.complete then .diff partitionQueueId leg ⟨page.lastRowId, page.repeatCursor⟩ afterPartitions
    else match leg with
      | .remove => .diff partitionQueueId .add {} afterPartitions
      | .add => .cleanup partitionQueueId {} afterPartitions
  return ⟨some ⟨continuation.inputStreamId, none, phase⟩, page.facts⟩

def applyCleanup (continuation : WindowContinuation) (partitionQueueId : Nat) (cursor : WindowCleanupCursor) (cleaned : WindowCleanup)
    (budget : WorkBudget) : Except Fault WindowTransition := do
  cleaned.page.validate cursor.row budget false
  let afterPartitions ← phaseAfterPartitions continuation.phase
  refuse (!cleaned.page.complete && cleaned.nextPartitionQueueId.isSome) "partial Window cleanup returned another partition"
  let drained (phase : WindowPhase) : WindowContinuation := ⟨continuation.inputStreamId, none, phase⟩
  if !cleaned.page.complete then
    return ⟨some (drained (.cleanup partitionQueueId ⟨cursor.relationOrdinal, ⟨cleaned.page.lastRowId⟩⟩ afterPartitions)),
      cleaned.page.facts⟩
  else if cursor.relationOrdinal + 1 < cleanupRelationCount then do
    refuse cleaned.nextPartitionQueueId.isSome "Window cleanup returned a partition before all work relations"
    return ⟨some (drained (.cleanup partitionQueueId ⟨cursor.relationOrdinal + 1, {}⟩ afterPartitions)), cleaned.page.facts⟩
  else
    match cleaned.nextPartitionQueueId with
    | some nextQueueId => do
        validateQueueId nextQueueId
        refuse (decide (nextQueueId ≤ partitionQueueId)) "Window partition queue did not advance"
        return ⟨some (drained (.enumerate nextQueueId {} afterPartitions)), cleaned.page.facts⟩
    | none =>
        match afterPartitions with
        | .admitted next => return ⟨some ⟨continuation.inputStreamId, some next, .admitted⟩, cleaned.page.facts⟩
        | .finishInput => return ⟨none, cleaned.page.facts⟩
        | .frontier frontier => return ⟨some ⟨continuation.inputStreamId, some frontier, .frontier⟩, cleaned.page.facts⟩

def applyFrontier (facts : PrimitiveFacts) (budget : WorkBudget) : Except Fault WindowTransition := do
  facts.validateProtocol budget .frontier .finished
  refuse (!facts.output.isFrontier || decide (facts.usage.inputRows ≠ 0) || decide (facts.usage.inputBytes ≠ 0))
    "Window frontier commit is inconsistent"
  return ⟨none, facts⟩

def apply (machine : WindowMachine) (continuation : WindowContinuation) (result : WindowActionResult) (budget : WorkBudget) :
    Except Fault WindowTransition := do
  match ← machine.action continuation, result with
  | .admitted input, .admitted admitted => machine.applyAdmission input admitted budget
  | .enumerate partitionQueueId cursor, .enumerated page =>
      machine.applyInternalPage continuation partitionQueueId cursor page .enumerate budget
  | .buildPeers partitionQueueId cursor, .peersBuilt page =>
      machine.applyInternalPage continuation partitionQueueId cursor page .peers budget
  | .buildFrames partitionQueueId cursor, .framesBuilt page =>
      machine.applyInternalPage continuation partitionQueueId cursor page .frames budget
  | .foldAggregate partitionQueueId functionOrdinal cursor, .aggregateFolded page =>
      machine.applyAggregateFold continuation partitionQueueId functionOrdinal cursor page budget
  | .evaluate partitionQueueId functionOrdinal cursor, .evaluated page =>
      machine.applyEvaluation continuation partitionQueueId functionOrdinal cursor page budget
  | .diff partitionQueueId leg cursor, .diffed page => applyDiff continuation partitionQueueId leg cursor page budget
  | .cleanup partitionQueueId cursor, .cleaned cleaned => applyCleanup continuation partitionQueueId cursor cleaned budget
  | .forwardFrontier _, .frontierForwarded facts => applyFrontier facts budget
  | _, _ => .error (.failed "database returned facts for another Window phase")

end WindowMachine

end Shiba.Window
