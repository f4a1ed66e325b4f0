import Shiba.Execution.Contract

set_option autoImplicit false

namespace Shiba.Join

open Shiba.Execution

inductive InputSide where
  | left
  | right
deriving DecidableEq, Repr

def InputSide.opposite : InputSide → InputSide
  | .left => .right
  | .right => .left

@[simp] theorem opposite_opposite (side : InputSide) : side.opposite.opposite = side := by
  cases side <;> rfl

@[simp] theorem opposite_ne (side : InputSide) : side.opposite ≠ side := by
  cases side <;> decide

inductive MatchTruth where
  | false
  | true
  | unknown
deriving DecidableEq, Repr

inductive JoinMode where
  | inner
  | left
  | right
  | full
  | semi
  | anti
  | nullAwareAnti
deriving DecidableEq, Repr

def u64Max : Nat := 18446744073709551615

def validateStableId (value : Int) (name : String) : Except Fault Unit :=
  refuse (decide (value ≤ 0)) s!"{name} ID must be positive"

def validateCount (value : Nat) (name : String) : Except Fault Unit :=
  refuse (decide (bigintMax < value)) s!"{name} count exceeds PostgreSQL bigint"

def validatePositiveCount (value : Nat) (name : String) : Except Fault Unit := do
  refuse (decide (value = 0)) s!"{name} must be positive"
  validateCount value name

def checkedU64 (left right : Nat) (message : String) : Except Fault Nat := do
  refuse (decide (u64Max < left + right)) message
  return left + right

def checkedCountSum (left right : Nat) (name : String) : Except Fault Nat := do
  let result ← checkedU64 left right s!"{name} overflow"
  validateCount result name
  return result

def checkedSignedCount (base : Nat) (delta : Int) (name : String) : Except Fault Nat := do
  validateCount base name
  let result : Int := base + delta
  refuse (decide (result < 0) || decide ((bigintMax : Int) < result)) s!"{name} underflow or overflow"
  return result.toNat

def checkedWeightProduct (weight : Int) (multiplicity : Nat) : Except Fault Int := do
  validatePositiveCount multiplicity "Join candidate multiplicity"
  let product := weight * multiplicity
  refuse (decide (product = 0) || decide (product < -(bigintMax : Int) - 1) || decide ((bigintMax : Int) < product))
    "Join pair weight underflow or overflow"
  return product

def countToI64 (value : Nat) (name : String) : Except Fault Int := do
  validateCount value name
  return value

structure InputPosition where
  streamId : Int
  chunkSeq : Int
  rowOrdinal : Int
deriving DecidableEq, Repr

def validateInputPosition (position : InputPosition) : Except Fault Unit :=
  refuse (decide (position.streamId ≤ 0) || decide (position.chunkSeq ≤ 0) || decide (position.rowOrdinal < 0))
    "Join continuation contains an invalid input position"

structure InputPositions where
  left : InputPosition
  right : InputPosition
deriving DecidableEq, Repr

def InputPositions.validate (positions : InputPositions) : Except Fault Unit := do
  validateInputPosition positions.left
  validateInputPosition positions.right

structure InputEventFacts where
  side : InputSide
  positions : InputPositions
  weight : Int
  rowBytes : Nat
deriving DecidableEq, Repr

def InputEventFacts.validate (facts : InputEventFacts) : Except Fault Unit := do
  facts.positions.validate
  refuse (decide (facts.weight = 0)) "Join input event has zero weight"
  refuse (decide (facts.rowBytes = 0)) "Join input event has zero measured bytes"

structure MatchCounts where
  matched : Nat := 0
  unknown : Nat := 0
deriving DecidableEq, Repr

def MatchCounts.validate (counts : MatchCounts) : Except Fault Unit := do
  validateCount counts.matched "matched"
  validateCount counts.unknown "unknown"

structure CandidateExpectation where
  rowId : Int
  multiplicity : Nat
  truth : MatchTruth
  oldCounts : MatchCounts
  newCounts : MatchCounts
deriving DecidableEq, Repr

def CandidateExpectation.validate (expectation : CandidateExpectation) : Except Fault Unit := do
  validateStableId expectation.rowId "Join candidate"
  validatePositiveCount expectation.multiplicity "Join candidate multiplicity"
  expectation.oldCounts.validate
  expectation.newCounts.validate

structure OwnExpectation where
  rowId : Option Int := none
  multiplicity : Nat := 0
  counts : MatchCounts := {}
deriving DecidableEq, Repr

def OwnExpectation.validate (expected : OwnExpectation) : Except Fault Unit := do
  expected.counts.validate
  match expected.rowId with
  | none =>
      refuse (!(decide (expected.multiplicity = 0) && decide (expected.counts = {})))
        "absent Join own state contains counts or multiplicity"
  | some rowId => do
      validateStableId rowId "Join own arrangement row"
      validatePositiveCount expected.multiplicity "Join own multiplicity"

def OwnExpectation.validateEvent (expected : OwnExpectation) (eventWeight : Int) : Except Fault Unit := do
  expected.validate
  let _ ← checkedSignedCount expected.multiplicity eventWeight "Join own multiplicity"
  return ()

structure InputProgress where
  positions : InputPositions
  side : InputSide
  eventWeight : Int
  eventBytes : Nat
  expectedOwn : OwnExpectation
  candidateAfter : Option Int
  oppositeCounts : MatchCounts
deriving DecidableEq, Repr

def InputProgress.fromEvent (event : InputEventFacts) (expectedOwn : OwnExpectation) : InputProgress where
  positions := event.positions
  side := event.side
  eventWeight := event.weight
  eventBytes := event.rowBytes
  expectedOwn := expectedOwn
  candidateAfter := none
  oppositeCounts := {}

def InputProgress.validate (progress : InputProgress) : Except Fault Unit := do
  progress.positions.validate
  refuse (decide (progress.eventWeight = 0)) "Join continuation contains a zero input weight"
  refuse (decide (progress.eventBytes = 0)) "Join continuation contains zero input bytes"
  progress.expectedOwn.validateEvent progress.eventWeight
  match progress.candidateAfter with
  | some rowId => validateStableId rowId "Join candidate cursor"
  | none => pure ()
  progress.oppositeCounts.validate

def InputProgress.validateResume (progress : InputProgress) (event : InputEventFacts) : Except Fault Unit := do
  event.validate
  refuse (decide (progress.side ≠ event.side)) "Join input side changed while resuming"
  refuse (decide (progress.positions ≠ event.positions)) "Join input positions changed while resuming"
  refuse (decide (progress.eventWeight ≠ event.weight)) "Join input weight changed while resuming"
  refuse (decide (progress.eventBytes ≠ event.rowBytes)) "Join input byte size changed while resuming"

def InputProgress.completeCandidate (progress : InputProgress) (candidate : CandidateExpectation) :
    Except Fault InputProgress := do
  let progress := { progress with candidateAfter := some candidate.rowId }
  match candidate.truth with
  | .true => do
      let matched ← checkedCountSum progress.oppositeCounts.matched candidate.multiplicity "Join event matched count"
      return { progress with oppositeCounts := { progress.oppositeCounts with matched := matched } }
  | .unknown => do
      let unknown ← checkedCountSum progress.oppositeCounts.unknown candidate.multiplicity "Join event unknown count"
      return { progress with oppositeCounts := { progress.oppositeCounts with unknown := unknown } }
  | .false => return progress

structure FrontierContinuation where
  positions : InputPositions
  side : InputSide
  frontier : Nat
deriving DecidableEq, Repr

inductive JoinContinuation where
  | preflight (positions : InputPositions) (side : InputSide)
  | probe (progress : InputProgress)
  | pendingTransition (progress : InputProgress) (candidate : CandidateExpectation)
  | finalize (progress : InputProgress)
  | frontier (continuation : FrontierContinuation)
deriving DecidableEq, Repr

def JoinContinuation.startInput (event : InputEventFacts) (expectedOwn : OwnExpectation) :
    Except Fault JoinContinuation := do
  event.validate
  expectedOwn.validateEvent event.weight
  return .probe (.fromEvent event expectedOwn)

def JoinContinuation.inputProgress : JoinContinuation → Option InputProgress
  | .probe progress => some progress
  | .pendingTransition progress _ => some progress
  | .finalize progress => some progress
  | .preflight _ _ => none
  | .frontier _ => none

def JoinContinuation.validateInputResume (continuation : JoinContinuation) (event : InputEventFacts) :
    Except Fault Unit :=
  match continuation.inputProgress with
  | some progress => progress.validateResume event
  | none => .error (.failed "input event cannot resume a Preflight or Frontier continuation")

structure ProjectionBytes where
  pair : Option Nat
  candidateOnly : Option Nat
deriving DecidableEq, Repr

def ProjectionBytes.validate (projections : ProjectionBytes) : Except Fault Unit :=
  refuse (decide (projections.pair = some 0) || decide (projections.candidateOnly = some 0))
    "measured Join projection has zero bytes"

structure CandidateProbe where
  rowId : Int
  multiplicity : Nat
  truth : MatchTruth
  oldCounts : MatchCounts
  rowBytes : Nat
  outputBytes : ProjectionBytes
deriving DecidableEq, Repr

def CandidateProbe.validate (candidate : CandidateProbe) : Except Fault Unit := do
  validateStableId candidate.rowId "Join candidate"
  validatePositiveCount candidate.multiplicity "Join candidate multiplicity"
  candidate.oldCounts.validate
  refuse (decide (candidate.rowBytes = 0)) "Join candidate has zero measured bytes"
  candidate.outputBytes.validate

structure ProbePage where
  candidates : List CandidateProbe
  complete : Bool
deriving DecidableEq, Repr

inductive OutputActionKind where
  | pair
  | candidateEligibility
  | currentEligibility
deriving DecidableEq, Repr

structure OutputAction where
  kind : OutputActionKind
  currentSide : InputSide
  candidateRowId : Option Int
  weight : Int
  rowBytes : Nat
deriving DecidableEq, Repr

def OutputAction.validate (action : OutputAction) : Except Fault Unit := do
  refuse (decide (action.weight = 0)) "Join output action has zero weight"
  refuse (decide (action.rowBytes = 0)) "Join output action has zero measured bytes"
  match action.kind, action.candidateRowId with
  | .pair, some rowId => validateStableId rowId "Join action candidate"
  | .candidateEligibility, some rowId => validateStableId rowId "Join action candidate"
  | .currentEligibility, none => return ()
  | _, _ => .error (.failed "Join output action has an invalid candidate identity")

structure CandidateStateChange where
  expected : CandidateExpectation
deriving DecidableEq, Repr

def CandidateStateChange.validate (change : CandidateStateChange) : Except Fault Unit := do
  change.expected.validate
  refuse (decide (change.expected.oldCounts = change.expected.newCounts)) "Join candidate mutation does not change state"

structure ActionPlan where
  budget : WorkBudget
  usage : WorkUsage
  actions : List OutputAction
  candidateChanges : List CandidateStateChange
  next : JoinContinuation

structure Classified where
  expected : CandidateExpectation
  actions : List OutputAction
deriving DecidableEq, Repr

def applyMatchDelta (old : MatchCounts) (truth : MatchTruth) (eventWeight : Int) : Except Fault MatchCounts := do
  old.validate
  match truth with
  | .true => do
      let matched ← checkedSignedCount old.matched eventWeight "Join candidate matched count"
      return { old with matched := matched }
  | .unknown => do
      let unknown ← checkedSignedCount old.unknown eventWeight "Join candidate unknown count"
      return { old with unknown := unknown }
  | .false => return old

def candidateSideIsOutput (mode : JoinMode) (candidateSide : InputSide) : Bool :=
  match mode with
  | .inner => false
  | .left => decide (candidateSide = .left)
  | .right => decide (candidateSide = .right)
  | .full => true
  | .semi | .anti | .nullAwareAnti => decide (candidateSide = .left)

def candidateEligible (mode : JoinMode) (counts : MatchCounts) : Bool :=
  match mode with
  | .inner => false
  | .left | .right | .full | .anti => decide (counts.matched = 0)
  | .semi => decide (0 < counts.matched)
  | .nullAwareAnti => decide (counts.matched = 0) && decide (counts.unknown = 0)

def currentSideIsEligible (mode : JoinMode) (currentSide : InputSide) (counts : MatchCounts) : Bool :=
  match mode with
  | .inner => false
  | .left => decide (currentSide = .left) && decide (counts.matched = 0)
  | .right => decide (currentSide = .right) && decide (counts.matched = 0)
  | .full => decide (counts.matched = 0)
  | .semi => decide (currentSide = .left) && decide (0 < counts.matched)
  | .anti => decide (currentSide = .left) && decide (counts.matched = 0)
  | .nullAwareAnti => decide (currentSide = .left) && decide (counts.matched = 0) && decide (counts.unknown = 0)

-- The modes whose output has a row for each matched pair.
def emitsPairs : JoinMode → Bool
  | .inner | .left | .right | .full => true
  | .semi | .anti | .nullAwareAnti => false

def classifyPair (mode : JoinMode) (currentSide : InputSide) (eventWeight : Int) (candidate : CandidateProbe) :
    Except Fault (List OutputAction) :=
  if candidate.truth = .true ∧ emitsPairs mode = true then do
    let weight ← checkedWeightProduct eventWeight candidate.multiplicity
    match candidate.outputBytes.pair with
    | none => .error (.failed "Join pair probe omitted projected bytes")
    | some rowBytes =>
        return [{ kind := .pair, currentSide := currentSide, candidateRowId := some candidate.rowId,
                  weight := weight, rowBytes := rowBytes }]
  else return []

def classifyEligibility (mode : JoinMode) (currentSide : InputSide) (candidate : CandidateProbe)
    (newCounts : MatchCounts) : Except Fault (List OutputAction) :=
  if candidateSideIsOutput mode currentSide.opposite = true ∧
      candidateEligible mode candidate.oldCounts ≠ candidateEligible mode newCounts then do
    let magnitude ← countToI64 candidate.multiplicity "Join transition weight"
    match candidate.outputBytes.candidateOnly with
    | none => .error (.failed "Join candidate transition probe omitted projected bytes")
    | some rowBytes =>
        return [{ kind := .candidateEligibility, currentSide := currentSide, candidateRowId := some candidate.rowId,
                  weight := if candidateEligible mode newCounts then magnitude else -magnitude, rowBytes := rowBytes }]
  else return []

def classifyCandidate (mode : JoinMode) (currentSide : InputSide) (eventWeight : Int) (candidate : CandidateProbe) :
    Except Fault Classified := do
  candidate.validate
  let newCounts ← applyMatchDelta candidate.oldCounts candidate.truth eventWeight
  let expected : CandidateExpectation :=
    { rowId := candidate.rowId, multiplicity := candidate.multiplicity, truth := candidate.truth
      oldCounts := candidate.oldCounts, newCounts := newCounts }
  expected.validate
  let pair ← classifyPair mode currentSide eventWeight candidate
  let eligibility ← classifyEligibility mode currentSide candidate newCounts
  return { expected := expected, actions := pair ++ eligibility }

-- Each row identifier follows the one before it.
def validateKeysetOrder (previous : Option Int) : List CandidateProbe → Except Fault Unit
  | [] => return ()
  | candidate :: rest => do
      candidate.validate
      refuse (previous.any fun rowId => decide (candidate.rowId ≤ rowId))
        "Join probe candidates are not in strict keyset order"
      validateKeysetOrder (some candidate.rowId) rest

def validateProbePageOrder (progress : InputProgress) (pending : Option CandidateExpectation) (page : ProbePage) :
    Except Fault Unit :=
  match page.candidates, pending with
  | [], some _ => .error (.failed "pending Join transition probe returned no candidate")
  | [], none => refuse (!page.complete) "partial Join probe page is empty"
  | candidate :: rest, some expected => do
      candidate.validate
      refuse (decide (candidate.rowId ≠ expected.rowId)) "pending Join candidate was not the first probe row"
      refuse (progress.candidateAfter.any fun rowId => decide (candidate.rowId ≤ rowId))
        "pending Join candidate does not follow the durable cursor"
      validateKeysetOrder (some candidate.rowId) rest
  | candidates, none => validateKeysetOrder progress.candidateAfter candidates

def validatePendingCandidate (progress : InputProgress) (candidate : CandidateExpectation) : Except Fault Unit := do
  progress.validate
  candidate.validate
  refuse (decide (candidate.truth ≠ .true)) "pending Join transition is not the second action of a true pair"
  let expectedMatched ← checkedSignedCount candidate.oldCounts.matched progress.eventWeight
    "pending Join candidate matched count"
  refuse (decide (candidate.newCounts.matched ≠ expectedMatched) ||
    decide (candidate.newCounts.unknown ≠ candidate.oldCounts.unknown))
    "pending Join candidate counts do not match the input event"
  refuse (progress.candidateAfter.any fun rowId => decide (candidate.rowId ≤ rowId))
    "pending Join candidate does not follow the durable cursor"

-- The first indivisible output row may exceed the target byte budget.
def actionFits (currentRows currentBytes : Nat) (action : OutputAction) (budget : WorkBudget) : Except Fault Bool := do
  action.validate
  let nextRows ← checkedU64 currentRows 1 "Join output row count overflow"
  if budget.maxOutputRows < nextRows then
    return false
  else do
    let nextBytes ← checkedU64 currentBytes action.rowBytes "Join output byte count overflow"
    return decide (currentRows = 0) || decide (nextBytes ≤ budget.maxOutputBytes)

-- The actions of one candidate that still fit, in order, and the output so far.
def selectActions (budget : WorkBudget) : List OutputAction → Nat → Nat → Except Fault (List OutputAction × Nat × Nat)
  | [], rows, bytes => return ([], rows, bytes)
  | action :: rest, rows, bytes => do
      let fits ← actionFits rows bytes action budget
      if fits then do
        let rows ← checkedU64 rows 1 "Join output row count overflow"
        let bytes ← checkedU64 bytes action.rowBytes "Join output byte count overflow"
        let (selected, rows, bytes) ← selectActions budget rest rows bytes
        return (action :: selected, rows, bytes)
      else
        return ([], rows, bytes)

def followsPair (actions : List OutputAction) : Bool :=
  match actions with
  | [first, second] => decide (first.kind = .pair) && decide (second.kind = .candidateEligibility)
  | _ => false

structure PageProgress where
  progress : InputProgress
  actions : List OutputAction := []
  changes : List CandidateStateChange := []
  outputRows : Nat := 0
  outputBytes : Nat := 0
  completed : Bool := true
  nextPending : Option CandidateExpectation := none

def PageProgress.emit (state : PageProgress) (selected : List OutputAction) (rows bytes : Nat) : PageProgress :=
  { state with actions := state.actions ++ selected, outputRows := rows, outputBytes := bytes }

-- A pending candidate has emitted its pair before.
def resumeAt (pending : Option CandidateExpectation) (classified : Classified) : Except Fault Nat :=
  match pending with
  | some expected => do
      refuse (decide (classified.expected ≠ expected)) "pending Join candidate state changed while resuming"
      refuse (!followsPair classified.actions) "pending Join transition no longer follows its pair action"
      return 1
  | none => return 0

def PageProgress.stop (state : PageProgress) (classified : Classified) (emitted : Nat) : Except Fault PageProgress :=
  if 0 < emitted then do
    refuse (decide (emitted ≠ 1) || !followsPair classified.actions)
      "Join action prefix stopped at a non-resumable boundary"
    return { state with completed := false, nextPending := some classified.expected }
  else
    return { state with completed := false }

def PageProgress.complete (state : PageProgress) (classified : Classified) : Except Fault PageProgress := do
  let changes := if classified.expected.oldCounts ≠ classified.expected.newCounts then [⟨classified.expected⟩] else []
  let progress ← state.progress.completeCandidate classified.expected
  return { state with changes := state.changes ++ changes, progress := progress }

-- The loop over the page; only its first candidate can be the pending one.
def processCandidates (mode : JoinMode) (budget : WorkBudget) :
    Option CandidateExpectation → List CandidateProbe → PageProgress → Except Fault PageProgress
  | _, [], state => return state
  | pending, candidate :: rest, state => do
      let classified ← classifyCandidate mode state.progress.side state.progress.eventWeight candidate
      let firstAction ← resumeAt pending classified
      let (selected, rows, bytes) ← selectActions budget (classified.actions.drop firstAction) state.outputRows
        state.outputBytes
      let state := state.emit selected rows bytes
      if selected.length ≠ classified.actions.length - firstAction then
        state.stop classified (firstAction + selected.length)
      else do
        let state ← state.complete classified
        processCandidates mode budget none rest state

def sumRowBytes : List CandidateProbe → Nat → Except Fault Nat
  | [], total => return total
  | candidate :: rest, total => do
      let total ← checkedU64 total candidate.rowBytes "Join probe input byte count overflow"
      sumRowBytes rest total

def validateAll {α : Type} (validate : α → Except Fault Unit) : List α → Except Fault Unit
  | [] => return ()
  | item :: rest => do
      validate item
      validateAll validate rest

def PageProgress.nextContinuation (state : PageProgress) (pageComplete : Bool) : Except Fault JoinContinuation :=
  match state.nextPending with
  | some candidate => do
      validatePendingCandidate state.progress candidate
      return .pendingTransition state.progress candidate
  | none =>
      if state.completed && pageComplete then return .finalize state.progress
      else return .probe state.progress

-- The source reads the counts as u64 of a usize, which never fails on 64 bits.
def planActions (mode : JoinMode) (continuation : JoinContinuation) (event : InputEventFacts) (page : ProbePage)
    (budget : WorkBudget) : Except Fault ActionPlan := do
  continuation.validateInputResume event
  let (progress, pending) ← (match continuation with
    | .preflight _ _ => .error (.failed "Preflight continuation has not validated its input event")
    | .probe progress => return (progress, none)
    | .pendingTransition progress candidate => return (progress, some candidate)
    | .finalize _ => .error (.failed "Finalize continuation cannot probe more Join candidates")
    | .frontier _ => .error (.failed "Frontier continuation cannot probe Join candidates") :
      Except Fault (InputProgress × Option CandidateExpectation))
  progress.validate
  validateProbePageOrder progress pending page
  let inputBytes ← sumRowBytes page.candidates 0
  let probeUsage : WorkUsage := { inputRows := page.candidates.length, inputBytes := inputBytes }
  probeUsage.validate budget
  let state ← processCandidates mode budget pending page.candidates { progress := progress }
  validateAll OutputAction.validate state.actions
  validateAll CandidateStateChange.validate state.changes
  let next ← state.nextContinuation page.complete
  let usage : WorkUsage :=
    { inputRows := page.candidates.length, inputBytes := inputBytes
      outputRows := state.outputRows, outputBytes := state.outputBytes }
  usage.validate budget
  return { budget := budget, usage := usage, actions := state.actions, candidateChanges := state.changes, next := next }

inductive OwnStateProbe where
  | absent (outputBytes : Nat)
  | present (rowId : Int) (multiplicity : Nat) (counts : MatchCounts) (outputBytes : Nat)
deriving DecidableEq, Repr

def OwnStateProbe.outputBytes : OwnStateProbe → Nat
  | .absent outputBytes => outputBytes
  | .present _ _ _ outputBytes => outputBytes

def OwnStateProbe.expectation : OwnStateProbe → OwnExpectation
  | .absent _ => {}
  | .present rowId multiplicity counts _ => { rowId := some rowId, multiplicity := multiplicity, counts := counts }

def OwnStateProbe.validate : OwnStateProbe → Except Fault Unit
  | .absent outputBytes => refuse (decide (outputBytes = 0)) "Join current-row projection has zero measured bytes"
  | .present rowId multiplicity counts outputBytes => do
      validateStableId rowId "Join own arrangement row"
      validatePositiveCount multiplicity "Join own multiplicity"
      counts.validate
      refuse (decide (outputBytes = 0)) "Join current-row projection has zero measured bytes"

inductive OwnStateChangeKind where
  | insert
  | update
  | delete
deriving DecidableEq, Repr

structure OwnStateChange where
  kind : OwnStateChangeKind
  expectedRowId : Option Int
  expectedMultiplicity : Nat
  newMultiplicity : Nat
  counts : MatchCounts
deriving DecidableEq, Repr

structure FinalizePlan where
  budget : WorkBudget
  usage : WorkUsage
  output : Option OutputAction
  ownChange : OwnStateChange

def finalizeProgress : JoinContinuation → Except Fault InputProgress
  | .finalize progress => return progress
  | .preflight _ _ | .probe _ | .pendingTransition _ _ =>
      .error (.failed "Join input cannot finalize before its candidate scan completes")
  | .frontier _ => .error (.failed "Join frontier cannot use input finalization")

def OwnStateProbe.before (own : OwnStateProbe) (scanned : MatchCounts) : Except Fault (Option Int × Nat) :=
  match own with
  | .absent _ => return (none, 0)
  | .present rowId multiplicity counts _ => do
      refuse (decide (counts ≠ scanned)) "Join own arrangement counts differ from the completed scan"
      return (some rowId, multiplicity)

def changeKind (expectedRowId : Option Int) (newMultiplicity : Nat) : Except Fault OwnStateChangeKind :=
  match expectedRowId with
  | none => do
      refuse (decide (newMultiplicity = 0)) "Join absent own row cannot remain absent after a nonzero event"
      return .insert
  | some _ => if newMultiplicity = 0 then return .delete else return .update

def currentOutput (mode : JoinMode) (progress : InputProgress) (rowBytes : Nat) : Option OutputAction :=
  if currentSideIsEligible mode progress.side progress.oppositeCounts then
    some { kind := .currentEligibility, currentSide := progress.side, candidateRowId := none
           weight := progress.eventWeight, rowBytes := rowBytes }
  else none

def finalizeUsage (progress : InputProgress) (output : Option OutputAction) : WorkUsage :=
  { inputRows := 1, inputBytes := progress.eventBytes, outputRows := if output.isSome then 1 else 0
    outputBytes := (output.map (·.rowBytes)).getD 0 }

def planFinalize (mode : JoinMode) (continuation : JoinContinuation) (event : InputEventFacts) (own : OwnStateProbe)
    (budget : WorkBudget) : Except Fault FinalizePlan := do
  continuation.validateInputResume event
  own.validate
  let progress ← finalizeProgress continuation
  progress.validate
  refuse (decide (own.expectation ≠ progress.expectedOwn)) "Join own arrangement changed while processing its fanout"
  let (expectedRowId, oldMultiplicity) ← own.before progress.oppositeCounts
  let newMultiplicity ← checkedSignedCount oldMultiplicity progress.eventWeight "Join own multiplicity"
  let kind ← changeKind expectedRowId newMultiplicity
  let ownChange : OwnStateChange :=
    { kind := kind, expectedRowId := expectedRowId, expectedMultiplicity := oldMultiplicity
      newMultiplicity := newMultiplicity, counts := progress.oppositeCounts }
  let output := currentOutput mode progress own.outputBytes
  validateAll OutputAction.validate output.toList
  let usage := finalizeUsage progress output
  usage.validate budget
  return { budget := budget, usage := usage, output := output, ownChange := ownChange }

end Shiba.Join
