import Shiba.Sink.Runtime
import Shiba.Library.Running

set_option autoImplicit false

namespace Shiba.Distinct

open Shiba.Execution Budget Running Weighted Shiba.Stream Shiba.Execution.StepContext Shiba.Linear

open Shiba.Sink (InputPosition)

inductive DistinctPhase where
  | apply
  | drain
  | frontier
deriving DecidableEq, Repr

structure DistinctContinuation where
  input : InputPosition
  phase : DistinctPhase
deriving DecidableEq, Repr

structure OccupancyDiff where
  touchedKeys : Nat := 0
  externalEffects : Nat := 0
deriving DecidableEq, Repr

inductive DistinctAction where
  | applyPrefix (input : InputPosition)
  | drainEffects (input : InputPosition)
  | forwardFrontier (input : InputPosition)
deriving DecidableEq, Repr

-- `next` is none when the input has moved past the chunk.
structure AppliedPrefix where
  facts : PrimitiveFacts
  occupancy : OccupancyDiff
  next : Option DistinctContinuation
deriving DecidableEq, Repr

inductive DistinctActionResult where
  | applied (page : AppliedPrefix)
  | drained (page : AppliedPrefix)
  | frontierForwarded (facts : PrimitiveFacts)
deriving DecidableEq, Repr

structure StoredContinuation where
  value : DistinctContinuation
  persisted : Bool
deriving DecidableEq, Repr

namespace DistinctMachine

def validateInput (input : InputPosition) : Except Fault Unit :=
  refuse (decide (input.streamId = 0) || decide (input.chunkSeq = 0)) "Distinct input position is invalid"

def action (continuation : DistinctContinuation) : Except Fault DistinctAction := do
  validateInput continuation.input
  refuse (decide (continuation.phase = .frontier) && decide (continuation.input.rowOrdinal ≠ 0))
    "Distinct frontier has a data-row position"
  match continuation.phase with
  | .apply => return .applyPrefix continuation.input
  | .drain => return .drainEffects continuation.input
  | .frontier => return .forwardFrontier continuation.input

def drainsNext (next : Option DistinctContinuation) : Bool := next.any fun next => decide (next.phase = .drain)

def handoffFits (page : AppliedPrefix) : Bool :=
  decide (page.facts.usage.outputRows = 0) && decide (page.facts.output = .none) &&
    (decide (0 < page.occupancy.externalEffects) == drainsNext page.next)

def outputFits (facts : PrimitiveFacts) : Bool :=
  match facts.output with
  | .none => decide (facts.usage.outputRows = 0)
  | .data _ => decide (0 < facts.usage.outputRows)
  | .frontier _ => false

def advances (consumesInput : Bool) (input : InputPosition) (next : DistinctContinuation) : Bool :=
  decide (next.input.streamId = input.streamId) && decide (next.input.chunkSeq = input.chunkSeq) &&
    (if consumesInput then decide (input.rowOrdinal < next.input.rowOrdinal)
      else decide (next.input.rowOrdinal = input.rowOrdinal)) &&
    decide (next.phase ≠ .frontier)

def applyPrefix (input : InputPosition) (page : AppliedPrefix) (budget : WorkBudget) (consumesInput : Bool) :
    Except Fault (Option DistinctContinuation) := do
  let usage := page.facts.usage
  refuse (consumesInput && decide (usage.inputRows = 0)) "Distinct prefix made no bounded input progress"
  refuse (!consumesInput && (decide (usage.inputRows ≠ 0) || decide (usage.inputBytes ≠ 0))) "Distinct drain consumed input"
  refuse (consumesInput && decide (usage.inputRows < page.occupancy.touchedKeys))
    "Distinct typed occupancy summary is inconsistent"
  refuse (consumesInput && !handoffFits page) "Distinct Apply/Drain handoff is inconsistent"
  refuse (!consumesInput && decide (page.occupancy.externalEffects ≠ usage.outputRows))
    "Distinct drain effect summary is inconsistent"
  refuse (!outputFits page.facts) "Distinct output chunk disagrees with its occupancy diff"
  match page.next with
  | none => pure ()
  | some next => do
      validateInput next.input
      refuse (!advances consumesInput input next) "Distinct continuation did not advance its input"
  page.facts.validateProtocol budget (if consumesInput then .admitted else .drain)
    (if page.next.isSome then .continuing else .finished)
  return page.next

def applyFrontier (facts : PrimitiveFacts) (budget : WorkBudget) : Except Fault (Option DistinctContinuation) := do
  facts.validateProtocol budget .frontier .finished
  refuse (!facts.output.isFrontier || decide (facts.usage.inputRows ≠ 0) || decide (facts.usage.inputBytes ≠ 0)
    || decide (facts.stateRows ≠ 0)) "Distinct frontier commit is inconsistent"
  return none

-- The continuation that the transition commits.
def apply (continuation : DistinctContinuation) (result : DistinctActionResult) (budget : WorkBudget) :
    Except Fault (Option DistinctContinuation) := do
  match ← action continuation, result with
  | .applyPrefix input, .applied page => applyPrefix input page budget true
  | .drainEffects input, .drained page => applyPrefix input page budget false
  | .forwardFrontier _, .frontierForwarded facts => applyFrontier facts budget
  | _, _ => .error (.failed "database returned facts for another Distinct phase")

end DistinctMachine

open Shiba.Sink (InputPosition)

-- A row of the group table. `key` stands for the key columns, as the equality
-- of their B-tree operator classes tells them apart, a NULL being equal to itself.
structure GroupRow (Key Out Bytes : Type) where
  groupStateId : Nat
  key : Key
  outputKey : Option Bytes := none
  outputRow : Option Out := none
  multiplicity : Nat := 0
deriving DecidableEq

structure BagRow (Out Bytes : Type) where
  groupStateId : Nat
  outputKey : Bytes
  outputRow : Out
  multiplicity : Nat
deriving DecidableEq

-- The queue is listed in the order of its identity column.
structure QueuedEffect (Out Bytes : Type) where
  outputKey : Bytes
  weight : Int
  outputRow : Out
  rowBytes : Nat
  causalLsn : Lsn
deriving DecidableEq

-- The state relations of a Distinct, the groups in the order of their primary key.
structure DistinctState (Key Out Bytes : Type) where
  groups : List (GroupRow Key Out Bytes) := []
  nextGroupStateId : Nat := 1
  bag : List (BagRow Out Bytes) := []
  queue : List (QueuedEffect Out Bytes) := []
  touched : List (Nat × Int) := []
deriving DecidableEq

-- What PostgreSQL evaluates for a Distinct: its key columns, its output row and
-- the canonical bytes of an output row. Every key is a column of the output.
structure DistinctSpec (Row Key Out Bytes : Type) where
  keys : Row → Key
  outputs : Row → Out
  canonicalKey : Out → Bytes
  inputLength : Row → Nat
  outputLength : Out → Nat
  keyed : ∀ row other, canonicalKey (outputs row) = canonicalKey (outputs other) → keys row = keys other

variable {Row Key Out Bytes : Type}

-- A Distinct's rows are measured as those of a Scan of no source would be.
def DistinctSpec.scanPlaceholder (spec : DistinctSpec Row Key Out Bytes) : ScanSpec Row Out where
  sourceOid := 0
  project := spec.outputs
  sourceLength := spec.inputLength
  outputLength := spec.outputLength

abbrev DistinctTables (Row Key Out Bytes : Type) :=
  StageTables Row Out DistinctContinuation (DistinctState Key Out Bytes)

abbrev DistinctContext (Row Key Out Bytes : Type) :=
  StepContext Row Out DistinctContinuation (DistinctState Key Out Bytes)

-- An incoming row with its group.
structure Evaluated (Out Bytes : Type) where
  groupStateId : Nat
  outputKey : Bytes
  outputRow : Out
  weight : Int

structure Decision where
  newMultiplicity : Int
  minimum : Int
  maximum : Int

structure PhysicalDecision (Out Bytes : Type) where
  groupStateId : Nat
  outputKey : Bytes
  incomingRow : Out
  decision : Decision

inductive TransitionStatus where
  | corrupt
  | negative
  | overflow
  | ok
deriving DecidableEq, Repr

def TransitionStatus.text : TransitionStatus → String
  | .corrupt => "corrupt"
  | .negative => "negative"
  | .overflow => "overflow"
  | .ok => "ok"

structure PrefixFacts where
  usage : WorkUsage
  nextRow : Nat
  touchedKeys : Nat
  queuedEffects : Nat
  stateRows : Nat

structure ReconcileFacts where
  queuedEffects : Nat
  stateRows : Nat

structure DrainFacts where
  facts : PrimitiveFacts
  remainingEffects : Nat

-- A multiplicity before and after the weights of a page, and its extremes on the way.
def decisionOf (multiplicity : Nat) (weights : List Int) : Decision where
  newMultiplicity := multiplicity + weights.sum
  minimum := multiplicity + extreme min weights
  maximum := multiplicity + extreme max weights

def admissionStatus (counted : Bool) (decisions : List Decision) : TransitionStatus :=
  if !counted then .corrupt
  else if decisions.any fun decision => decide (decision.minimum < 0) then .negative
  else if decisions.any fun decision => decide (bigintMax < decision.maximum) then .overflow
  else .ok

section Prefix

variable [LinearOrder Key] [LinearOrder Bytes] (spec : DistinctSpec Row Key Out Bytes)

def findGroup (groups : List (GroupRow Key Out Bytes)) (key : Key) : Option (GroupRow Key Out Bytes) :=
  groups.find? fun group => decide (group.key = key)

-- INSERT .. ON CONFLICT DO UPDATE of one key; the identity column moves on either way.
def resolveGroup (state : DistinctState Key Out Bytes) (key : Key) : DistinctState Key Out Bytes :=
  { state with
    groups := if (findGroup state.groups key).isSome then state.groups
      else state.groups ++ [{ groupStateId := state.nextGroupStateId, key := key }]
    nextGroupStateId := state.nextGroupStateId + 1 }

-- DISTINCT ON the keys, in their order.
def collapsedKeys (rows : List (EffectRow Row)) : List Key :=
  (rows.map fun row => spec.keys row.rowValue).dedup.insertionSort (· ≤ ·)

def incomingRows (budget : WorkBudget) (rows : List (EffectRow Row)) : List (EffectRow Row) :=
  withinBudget (fun taken => decide (spec.scanPlaceholder.sourceBytes taken ≤ budget.maxInputBytes))
    (rows.take budget.maxInputRows)

def evaluate (groups : List (GroupRow Key Out Bytes)) (rows : List (EffectRow Row)) : List (Evaluated Out Bytes) :=
  rows.filterMap fun row => (findGroup groups (spec.keys row.rowValue)).map fun group =>
    let output := spec.outputs row.rowValue
    { groupStateId := group.groupStateId, outputKey := spec.canonicalKey output, outputRow := output, weight := row.weight }

def keyWeights (evaluated : List (Evaluated Out Bytes)) : List (Nat × Int) :=
  evaluated.map fun row => (row.groupStateId, row.weight)

def physicalWeights (evaluated : List (Evaluated Out Bytes)) : List ((Nat × Bytes) × Int) :=
  evaluated.map fun row => ((row.groupStateId, row.outputKey), row.weight)

def keyDecision (evaluated : List (Evaluated Out Bytes)) (group : GroupRow Key Out Bytes) : Nat × Decision :=
  (group.groupStateId,
    decisionOf group.multiplicity (amountsOf (keyWeights evaluated) fun id => decide (id = group.groupStateId)))

def findBag (bag : List (BagRow Out Bytes)) (groupStateId : Nat) (outputKey : Bytes) : Option (BagRow Out Bytes) :=
  bag.find? fun row => decide (row.groupStateId = groupStateId) && decide (row.outputKey = outputKey)

-- One row for each group and output key, with the first output row that came in.
def physicalDecisions (bag : List (BagRow Out Bytes)) (evaluated : List (Evaluated Out Bytes)) :
    List (PhysicalDecision Out Bytes) :=
  let weights := physicalWeights evaluated
  (weights.map Prod.fst).dedup.filterMap fun physical =>
    (evaluated.find? fun row => decide ((row.groupStateId, row.outputKey) = physical)).map fun first =>
      { groupStateId := physical.1, outputKey := physical.2, incomingRow := first.outputRow
        decision := decisionOf (((findBag bag physical.1 physical.2).map BagRow.multiplicity).getD 0)
          (amountsOf weights fun other => decide (other = physical)) }

def PhysicalDecision.matches (physical : PhysicalDecision Out Bytes) (row : BagRow Out Bytes) : Bool :=
  decide (row.groupStateId = physical.groupStateId) && decide (row.outputKey = physical.outputKey)

-- DELETE, UPDATE and INSERT of the bag rows, and how many of them there were.
def admitBag (bag : List (BagRow Out Bytes)) (physical : List (PhysicalDecision Out Bytes)) :
    List (BagRow Out Bytes) × Nat :=
  let removed := bag.filter fun row =>
    physical.any fun one => one.matches row && decide (one.decision.newMultiplicity = 0)
  let kept := bag.filter fun row =>
    !physical.any fun one => one.matches row && decide (one.decision.newMultiplicity = 0)
  let changed := kept.filter fun row => physical.any fun one => one.matches row
  let created := physical.filter fun one =>
    (findBag bag one.groupStateId one.outputKey).isNone && decide (0 < one.decision.newMultiplicity)
  (kept.map (fun row =>
      match physical.find? fun one => one.matches row with
      | some one => { row with multiplicity := one.decision.newMultiplicity.toNat }
      | none => row) ++
    created.map fun one => ⟨one.groupStateId, one.outputKey, one.incomingRow, one.decision.newMultiplicity.toNat⟩,
    removed.length + changed.length + created.length)

-- The bag row with the least output key.
def leastRow : List (BagRow Out Bytes) → Option (BagRow Out Bytes)
  | [] => none
  | row :: rest =>
      match leastRow rest with
      | none => some row
      | some other => if row.outputKey ≤ other.outputKey then some row else some other

def representative (bag : List (BagRow Out Bytes)) (groupStateId : Nat) : Option (BagRow Out Bytes) :=
  leastRow (bag.filter fun row => decide (row.groupStateId = groupStateId))

structure Desired (Key Out Bytes : Type) where
  group : GroupRow Key Out Bytes
  newMultiplicity : Int
  representative : Option (BagRow Out Bytes)

-- The touched groups in the order of their identifiers.
def desiredGroups (state : DistinctState Key Out Bytes) : List (Desired Key Out Bytes) :=
  state.groups.filterMap fun group =>
    (state.touched.find? fun one => decide (one.1 = group.groupStateId)).map fun one =>
      { group := group, newMultiplicity := group.multiplicity + one.2
        representative := representative state.bag group.groupStateId }

def Desired.corrupt (desired : Desired Key Out Bytes) : Bool :=
  decide (desired.newMultiplicity < 0) || decide (bigintMax < desired.newMultiplicity)
    || (decide (0 < desired.group.multiplicity) != desired.group.outputKey.isSome)
    || (decide (0 < desired.newMultiplicity) != desired.representative.isSome)
    || desired.representative.any fun row => decide (row.outputKey ≠ spec.canonicalKey row.outputRow)

def Desired.changes (desired : Desired Key Out Bytes) : Bool :=
  decide (desired.group.outputKey ≠ desired.representative.map BagRow.outputKey)

-- The old representative leaves first.
def Desired.effects (desired : Desired Key Out Bytes) (lsn : Lsn) : List (QueuedEffect Out Bytes) :=
  let queued := fun outputKey weight outputRow =>
    { outputKey, weight, outputRow, rowBytes := spec.outputLength outputRow + 8, causalLsn := lsn }
  if desired.changes then
    (desired.group.outputKey.toList.zip desired.group.outputRow.toList).map (fun old => queued old.1 (-1) old.2) ++
      desired.representative.toList.map fun row => queued row.outputKey 1 row.outputRow
  else []

def updateGroup (desired : List (Desired Key Out Bytes)) (group : GroupRow Key Out Bytes) : GroupRow Key Out Bytes :=
  match desired.find? fun one => decide (one.group.groupStateId = group.groupStateId) with
  | some one =>
      { group with
        outputKey := one.representative.map BagRow.outputKey
        outputRow := one.representative.map BagRow.outputRow
        multiplicity := one.newMultiplicity.toNat }
  | none => group

def removesGroup (desired : List (Desired Key Out Bytes)) (group : GroupRow Key Out Bytes) : Bool :=
  desired.any fun one => decide (one.group.groupStateId = group.groupStateId) && decide (one.newMultiplicity = 0)

-- The bag references its group ON DELETE RESTRICT.
def restrictGroups (bag : List (BagRow Out Bytes)) (removed : List (GroupRow Key Out Bytes)) : Except Fault Unit :=
  if removed.any fun group => bag.any fun row => decide (row.groupStateId = group.groupStateId) then
    .error (.raised "23503" "group is still referenced from the representative bag")
  else .ok ()

def reconcileRepresentatives (budget : WorkBudget) (lsn : Lsn) (state : DistinctState Key Out Bytes) :
    Except Fault (DistinctState Key Out Bytes × ReconcileFacts) := do
  let desired := desiredGroups state
  let status : TransitionStatus :=
    if desired.length ≠ state.touched.length ∨ desired.any (Desired.corrupt spec) = true then .corrupt else .ok
  refuse (decide (status ≠ .ok)) s!"Distinct representative reconciliation returned {status.text}"
  let effects := desired.flatMap fun one => one.effects spec lsn
  let removed := state.groups.filter (removesGroup desired)
  restrictGroups state.bag removed
  refuse (decide (budget.maxInputRows < desired.length)) "Distinct reconciliation exceeded its touched-group bound"
  let groups := (state.groups.filter fun group => !removesGroup desired group).map (updateGroup desired)
  let changed := desired.filter fun one => decide (0 < one.newMultiplicity)
  return ({ state with groups, queue := state.queue ++ effects, touched := [] },
    ⟨effects.length, changed.length + removed.length + effects.length + state.touched.length⟩)

def checkAdmission (status : TransitionStatus) : Except Fault Unit :=
  refuse (decide (status ≠ .ok)) s!"Distinct multiplicity transition returned {status.text}"

-- The first statement of a prefix; the second one sees its bag.
def admitPrefix (state : DistinctState Key Out Bytes) (incoming : List (EffectRow Row)) :
    Except Fault (DistinctState Key Out Bytes × Nat × Nat × Nat) := do
  let collapsed := collapsedKeys spec incoming
  let resolving := collapsed.foldl resolveGroup state
  let resolved := collapsed.filterMap (findGroup resolving.groups)
  let evaluated := evaluate spec resolving.groups incoming
  let keyCollapsed := ((keyWeights evaluated).map Prod.fst).dedup
  let keyDecisions := keyCollapsed.filterMap fun id =>
    (resolved.find? fun group => decide (group.groupStateId = id)).map (keyDecision evaluated)
  let physical := physicalDecisions state.bag evaluated
  let counted := decide (evaluated.length = incoming.length) && decide (resolved.length = collapsed.length) &&
    decide (keyDecisions.length = keyCollapsed.length)
  checkAdmission (admissionStatus counted (keyDecisions.map Prod.snd ++ physical.map PhysicalDecision.decision))
  let (bag, bagRows) := admitBag state.bag physical
  let touched := keyCollapsed.map fun id => (id, total (keyWeights evaluated) fun other => decide (other = id))
  return ({ resolving with bag, touched := resolving.touched ++ touched },
    keyDecisions.length, physical.length, bagRows + resolved.length + touched.length)

def runPrefix (context : DistinctContext Row Key Out Bytes) (chunk : EffectChunk Row) (firstRow : Nat) :
    Except Fault (DistinctContext Row Key Out Bytes × PrefixFacts) := do
  let budget := context.budget
  let incoming := incomingRows spec budget (chunk.payload.drop firstRow)
  let (admitted, touchedKeys, touchedPhysical, mutations) ← admitPrefix spec context.tables.state incoming
  refuse incoming.isEmpty "database returned NULL Distinct next row"
  let inputRows := incoming.length
  refuse (decide (inputRows < touchedKeys) || decide (inputRows < touchedPhysical))
    "Distinct Apply exceeded its per-input state bound"
  let (state, reconciled) ← reconcileRepresentatives spec budget chunk.chunkLsn admitted
  refuse (decide (inputRows * 2 < reconciled.queuedEffects)) "Distinct queued more than two effects per admitted row"
  return ({ context with tables := { context.tables with state } },
    { usage := ⟨inputRows, spec.scanPlaceholder.sourceBytes incoming, 0, 0⟩
      nextRow := firstRow + inputRows
      touchedKeys
      queuedEffects := reconciled.queuedEffects
      stateRows := mutations + reconciled.stateRows })

-- The selected effects are the first ones of the queue.
def selectedEffects (budget : WorkBudget) (output : OutputState Out) (queue : List (QueuedEffect Out Bytes)) :
    List (QueuedEffect Out Bytes) :=
  withinBudget
    (fun taken => decide ((taken.map QueuedEffect.rowBytes).sum ≤ min budget.maxOutputBytes output.targetBytes))
    (queue.take (min budget.maxOutputRows output.targetRows))

def drainQueue (context : DistinctContext Row Key Out Bytes) :
    Except Fault (DistinctContext Row Key Out Bytes × DrainFacts) := do
  let state := context.tables.state
  let selected := selectedEffects context.budget context.output state.queue
  match selected.head? with
  | none => .error (.failed "database returned NULL Distinct causal LSN summary")
  | some first => do
      let emitted := selected.length
      let emittedBytes := (selected.map QueuedEffect.rowBytes).sum
      let oneCausalLsn := selected.all fun effect => decide (effect.causalLsn = first.causalLsn)
      let canonicalKeys := selected.all fun effect => decide (effect.outputKey = spec.canonicalKey effect.outputRow)
      refuse (decide (emittedBytes = 0) || !oneCausalLsn || !canonicalKeys)
        "Distinct bounded effect Drain is inconsistent"
      let queue := state.queue.drop emitted
      let drained := { context with tables := { context.tables with state := { state with queue } } }
      let sequence := context.output.nextChunkSeq
      let appended ← drained.recordOutputAppend (.new sequence) emitted emittedBytes first.causalLsn
        (selected.map fun effect => ⟨effect.weight, effect.outputRow⟩)
      return (appended, ⟨⟨⟨0, 0, emitted, emittedBytes⟩, emitted, .data sequence⟩, queue.length⟩)

def loadContinuation (context : DistinctContext Row Key Out Bytes) : Except Fault StoredContinuation :=
  match context.tables.continuation with
  | none => do
      let input ← InputPosition.new context.input.streamId context.input.nextChunkSeq 0
      return ⟨⟨input, .apply⟩, false⟩
  | some saved => do
      let input ← InputPosition.new saved.input.streamId saved.input.chunkSeq saved.input.rowOrdinal
      refuse (decide (input.streamId ≠ context.input.streamId) || decide (input.chunkSeq ≠ context.input.nextChunkSeq))
        "Distinct continuation is not at its input cursor"
      return ⟨⟨input, saved.phase⟩, true⟩

def phaseCode (continuation : DistinctContinuation) : Except Fault Unit :=
  refuse (decide (continuation.phase = .frontier)) "Distinct frontier cannot be persisted"

def replaceContinuation (context : DistinctContext Row Key Out Bytes) (old : StoredContinuation)
    (next : Option DistinctContinuation) : Except Fault (DistinctContext Row Key Out Bytes) := do
  if old.persisted then phaseCode old.value
  match next with
  | none => pure ()
  | some next => phaseCode next
  context.replaceContinuationCas (if old.persisted then some old.value else none) next "Distinct"

def finishInputPosition (context : DistinctContext Row Key Out Bytes) (chunk : EffectChunk Row) (nextRow : Nat) :
    Except Fault (DistinctContext Row Key Out Bytes × Option DistinctContinuation) :=
  if nextRow < chunk.rowCount then do
    let input ← InputPosition.new context.input.streamId chunk.chunkSeq nextRow
    return (context, some ⟨input, .apply⟩)
  else if nextRow = chunk.rowCount then do
    let context ← context.advanceInput (chunk.chunkSeq + 1) context.input.consumedFrontierLsn
      ⟨chunk.rowCount, chunk.payloadBytes, 0, 0⟩
    return (context, none)
  else .error (.failed "Distinct prefix advanced beyond its input chunk")

def requireEmptyQueue (state : DistinctState Key Out Bytes) : Except Fault Unit :=
  refuse (!state.queue.isEmpty) "Distinct Apply/frontier found undrained effects"

def requireEmptyTouched (state : DistinctState Key Out Bytes) : Except Fault Unit :=
  refuse (!state.touched.isEmpty) "Distinct found committed touched-key scratch state"

def stepFrontier (context : DistinctContext Row Key Out Bytes) (stored : StoredContinuation) (chunk : EffectChunk Row) :
    Except Fault (DistinctContext Row Key Out Bytes × StepReceipt) := do
  refuse (decide (stored.value.input.rowOrdinal ≠ 0)) "Distinct frontier has a row continuation"
  requireEmptyQueue context.tables.state
  let facts : PrimitiveFacts := { output := .frontier context.output.nextChunkSeq }
  let context ← context.appendFrontier chunk.chunkLsn
  let context ← context.advanceInput (chunk.chunkSeq + 1) chunk.chunkLsn {}
  let context ← replaceContinuation context stored none
  let _ ← DistinctMachine.apply stored.value (.frontierForwarded facts) context.budget
  context.transitionFacts .frontier facts

def stepDrain (context : DistinctContext Row Key Out Bytes) (stored : StoredContinuation) (chunk : EffectChunk Row) :
    Except Fault (DistinctContext Row Key Out Bytes × StepReceipt) := do
  let (context, drained) ← drainQueue spec context
  let (context, next) ←
    if 0 < drained.remainingEffects then pure (context, some stored.value)
    else finishInputPosition context chunk stored.value.input.rowOrdinal
  let page : AppliedPrefix := ⟨drained.facts, { externalEffects := drained.facts.usage.outputRows }, next⟩
  let continuation ← DistinctMachine.apply stored.value (.drained page) context.budget
  let context ← replaceContinuation context stored continuation
  context.transitionFacts .drain drained.facts

def stepApply (context : DistinctContext Row Key Out Bytes) (stored : StoredContinuation) (chunk : EffectChunk Row) :
    Except Fault (DistinctContext Row Key Out Bytes × StepReceipt) := do
  if stored.value.input.rowOrdinal = 0 then payloadFacts spec.scanPlaceholder context.input.streamId chunk
  requireEmptyQueue context.tables.state
  let (context, facts) ← runPrefix spec context chunk stored.value.input.rowOrdinal
  let (context, next) ←
    if 0 < facts.queuedEffects then do
      let input ← InputPosition.new context.input.streamId chunk.chunkSeq facts.nextRow
      pure (context, some ⟨input, .drain⟩)
    else finishInputPosition context chunk facts.nextRow
  let primitive : PrimitiveFacts := ⟨facts.usage, facts.stateRows, .none⟩
  let page : AppliedPrefix := ⟨primitive, ⟨facts.touchedKeys, facts.queuedEffects⟩, next⟩
  let continuation ← DistinctMachine.apply stored.value (.applied page) context.budget
  let context ← replaceContinuation context stored continuation
  context.transitionFacts .admitted primitive

-- The phase comes from the continuation, or from the kind of a fresh chunk.
def phaseOf (stored : StoredContinuation) (kind : ChunkKind) : DistinctPhase :=
  if stored.persisted then stored.value.phase
  else match kind with
    | .data => .apply
    | .frontier => .frontier

def step (context : DistinctContext Row Key Out Bytes) :
    Except Fault (DistinctContext Row Key Out Bytes × StepReceipt) := do
  let stored ← loadContinuation context
  let context ← context.bindContinuationAuthority stored.persisted
  match ← chunkAt context.tables.input context.input.nextChunkSeq with
  | none => .error (.failed "runnable Distinct has no input chunk")
  | some chunk => do
      refuse (stored.persisted && (decide (chunk.chunkKind ≠ .data) || decide (stored.value.phase = .frontier)))
        "Distinct continuation is not pinned to a data chunk"
      let stored := { stored with value := { stored.value with phase := phaseOf stored chunk.chunkKind } }
      requireEmptyTouched context.tables.state
      match stored.value.phase with
      | .frontier => stepFrontier context stored chunk
      | .drain => stepDrain spec context stored chunk
      | .apply => stepApply spec context stored chunk

def stepDistinct (tables : DistinctTables Row Key Out Bytes) (key : ConsumerKey) (budget : WorkBudget) :
    Except Fault (DistinctTables Row Key Out Bytes) :=
  runKernel [.admitted, .drain, .frontier] false (step spec) tables key budget

end Prefix

end Shiba.Distinct
