import Shiba.Join.Planner
import Shiba.Library.Weighted
import Shiba.Library.Transition

set_option autoImplicit false

namespace Shiba.Join

open Shiba.Execution Weighted

-- A row of the joined output: a matched pair, or a row of one side with
-- nothing, or with no columns, of the other.
inductive OutputRow (Row : Type) where
  | pair (left right : Row)
  | single (side : InputSide) (row : Row)
deriving DecidableEq

section

variable {Row : Type}

-- The condition seen from one side.
def truthOf (condition : Row → Row → MatchTruth) (side : InputSide) (row other : Row) : MatchTruth :=
  match side with
  | .left => condition row other
  | .right => condition other row

theorem truth_of_opposite (condition : Row → Row → MatchTruth) (side : InputSide) (row other : Row) :
    truthOf condition side.opposite row other = truthOf condition side other row := by
  cases side <;> rfl

def pairOf (side : InputSide) (row other : Row) : OutputRow Row :=
  match side with
  | .left => .pair row other
  | .right => .pair other row

-- How often a row is in the current bag of a side.
abbrev Bag (Row : Type) := InputSide → Row → Int

-- Some row of the other side makes the condition what `truth` says.
def Meets (condition : Row → Row → MatchTruth) (bag : Bag Row) (side : InputSide) (row : Row) (truth : MatchTruth) : Prop :=
  ∃ other, truthOf condition side row other = truth ∧ 0 < bag side.opposite other

-- The rows an outer, semi or anti join keeps on their own. A NULL-aware anti
-- join is NOT IN: a row goes when some comparison is true or unknown.
def KeptSingle (mode : JoinMode) (condition : Row → Row → MatchTruth) (bag : Bag Row) (side : InputSide) (row : Row) : Prop :=
  match mode, side with
  | .inner, _ => False
  | .left, .left => ¬ Meets condition bag side row .true
  | .left, .right => False
  | .right, .left => False
  | .right, .right => ¬ Meets condition bag side row .true
  | .full, _ => ¬ Meets condition bag side row .true
  | .semi, .left => Meets condition bag side row .true
  | .semi, .right => False
  | .anti, .left => ¬ Meets condition bag side row .true
  | .anti, .right => False
  | .nullAwareAnti, .left => ¬ Meets condition bag side row .true ∧ ¬ Meets condition bag side row .unknown
  | .nullAwareAnti, .right => False

open Classical in
-- The SQL join of the two bags: how often it has each output row.
noncomputable def sqlJoin (mode : JoinMode) (condition : Row → Row → MatchTruth) (bag : Bag Row) : OutputRow Row → Int
  | .pair left right => if emitsPairs mode = true ∧ condition left right = .true then bag .left left * bag .right right else 0
  | .single side row => if KeptSingle mode condition bag side row then bag side row else 0

end

-- A row of an arrangement table; the identifier is its primary key.
structure Entry (Row : Type) where
  rowId : Int
  row : Row
  multiplicity : Nat
  counts : MatchCounts

-- What PostgreSQL evaluates and measures for the Join. `probed` says which rows
-- the key predicates return for a current row; those they leave out do not match.
structure JoinSpec (Row : Type) where
  mode : JoinMode
  condition : Row → Row → MatchTruth
  probed : InputSide → Row → Row → Bool
  rowBytes : InputSide → Row → Nat
  pairBytes : Row → Row → Nat
  singleBytes : InputSide → Row → Nat
  skipped : ∀ side row other, probed side row other = false → truthOf condition side row other = .false
  rowMeasured : ∀ side row, 0 < rowBytes side row ∧ rowBytes side row ≤ bigintMax
  pairMeasured : ∀ left right, 0 < pairBytes left right ∧ pairBytes left right ≤ bigintMax
  singleMeasured : ∀ side row, 0 < singleBytes side row ∧ singleBytes side row ≤ bigintMax

structure Current (Row : Type) where
  row : Row
  event : InputEventFacts
  continuation : JoinContinuation

-- `consumed` are the input events of the rows that are done, `outputs` the
-- weighted rows of the output stream so far.
structure JoinState (Row : Type) where
  arrangement : InputSide → List (Entry Row) := fun _ => []
  nextRowId : InputSide → Int := fun _ => 1
  current : Option (Current Row) := none
  consumed : List ((InputSide × Row) × Int) := []
  outputs : List (OutputRow Row × Int) := []

variable {Row : Type}

def setSide {α : Type} (values : InputSide → α) (side : InputSide) (value : α) : InputSide → α :=
  fun other => if other = side then value else values other

def Entry.expectation (entry : Entry Row) : OwnExpectation :=
  { rowId := some entry.rowId, multiplicity := entry.multiplicity, counts := entry.counts }

-- The counts as the probe's SQL adds the event to them.
def countsAfter (counts : MatchCounts) (truth : MatchTruth) (weight : Int) : MatchCounts :=
  match truth with
  | .true => { counts with matched := (counts.matched + weight).toNat }
  | .unknown => { counts with unknown := (counts.unknown + weight).toNat }
  | .false => counts

section

variable (spec : JoinSpec Row) (side : InputSide) (row : Row) (weight : Int)

abbrev Entry.truth (entry : Entry Row) : MatchTruth := truthOf spec.condition side row entry.row

abbrev Entry.shifted (entry : Entry Row) : MatchCounts := countsAfter entry.counts (entry.truth spec side row) weight

abbrev Matches (entry : Entry Row) : Prop := entry.truth spec side row = .true ∧ emitsPairs spec.mode = true

abbrev Flips (entry : Entry Row) : Prop :=
  candidateSideIsOutput spec.mode side.opposite = true ∧
    candidateEligible spec.mode entry.counts ≠ candidateEligible spec.mode (entry.shifted spec side row weight)

end

def pairSize (spec : JoinSpec Row) (side : InputSide) (row other : Row) : Nat :=
  match side with
  | .left => spec.pairBytes row other
  | .right => spec.pairBytes other row

def candidateProbe (spec : JoinSpec Row) (side : InputSide) (row : Row) (weight : Int) (entry : Entry Row) :
    CandidateProbe where
  rowId := entry.rowId
  multiplicity := entry.multiplicity
  truth := entry.truth spec side row
  oldCounts := entry.counts
  rowBytes := spec.rowBytes side.opposite entry.row
  outputBytes :=
    { pair := if Matches spec side row entry then some (pairSize spec side row entry.row) else none
      candidateOnly := if Flips spec side row weight entry then some (spec.singleBytes side.opposite entry.row) else none }

def cursor (progress : InputProgress) : Int := progress.candidateAfter.getD 0

-- The candidates behind the cursor, in the order of their identifiers.
def remaining (spec : JoinSpec Row) (side : InputSide) (row : Row) (after : Int) (entries : List (Entry Row)) :
    List (Entry Row) :=
  entries.filter fun entry => decide (after < entry.rowId) && spec.probed side row entry.row

def probeCandidates (spec : JoinSpec Row) (current : Current Row) (progress : InputProgress) (entries : List (Entry Row))
    (count : Nat) : ProbePage :=
  let side := current.event.side
  let left := remaining spec side current.row (cursor progress) entries
  { candidates := (left.take count).map (candidateProbe spec side current.row current.event.weight)
    complete := (left.drop count).isEmpty }

def CandidateExpectation.matches (expected : CandidateExpectation) (entry : Entry Row) : Bool :=
  decide (entry.rowId = expected.rowId) && decide (entry.multiplicity = expected.multiplicity) &&
    decide (entry.counts = expected.oldCounts)

-- The identifier is unique, so the update count falls short exactly when some change finds no row.
def applyCandidateChanges (entries : List (Entry Row)) (changes : List CandidateStateChange) :
    Except Fault (List (Entry Row)) := do
  refuse (!changes.all fun change => entries.any change.expected.matches)
    "Join candidate compare-and-set changed an unexpected row count"
  return entries.map fun entry =>
    match changes.find? fun change => change.expected.matches entry with
    | some change => { entry with counts := change.expected.newCounts }
    | none => entry

def outputRow (side : InputSide) (row : Row) (opposite : List (Entry Row)) (action : OutputAction) :
    Option (OutputRow Row × Int) :=
  let candidate := opposite.find? fun entry => decide (some entry.rowId = action.candidateRowId)
  match action.kind with
  | .pair => candidate.map fun entry => (pairOf side row entry.row, action.weight)
  | .candidateEligibility => candidate.map fun entry => (.single side.opposite entry.row, action.weight)
  | .currentEligibility => some (.single side row, action.weight)

def appendActions (side : InputSide) (row : Row) (opposite : List (Entry Row)) (actions : List OutputAction) :
    Except Fault (List (OutputRow Row × Int)) := do
  let rows := actions.filterMap (outputRow side row opposite)
  refuse (decide (rows.length ≠ actions.length)) "Join output projection changed after its bounded probe"
  return rows

def OwnStateChange.finds (change : OwnStateChange) (entry : Entry Row) : Bool :=
  decide (some entry.rowId = change.expectedRowId) && decide (entry.multiplicity = change.expectedMultiplicity) &&
    decide (entry.counts = change.counts)

variable [DecidableEq Row]

def ownEntry (entries : List (Entry Row)) (row : Row) : Option (Entry Row) :=
  entries.find? fun entry => decide (entry.row = row)

def loadOwnExpectation (entries : List (Entry Row)) (row : Row) (weight : Int) : Except Fault OwnExpectation := do
  let own := ((ownEntry entries row).map Entry.expectation).getD {}
  own.validateEvent weight
  return own

def applyOwnChange (entries : List (Entry Row)) (nextRowId : Int) (row : Row) (change : OwnStateChange) :
    Except Fault (List (Entry Row)) :=
  match change.kind with
  | .insert => do
      refuse (ownEntry entries row).isSome "Join own arrangement compare-and-set did not affect one row"
      return entries ++ [{ rowId := nextRowId, row := row, multiplicity := change.newMultiplicity, counts := change.counts }]
  | .update => do
      refuse (!entries.any change.finds) "Join own arrangement compare-and-set did not affect one row"
      return entries.map fun entry => if change.finds entry then { entry with multiplicity := change.newMultiplicity } else entry
  | .delete => do
      refuse (!entries.any change.finds) "Join own arrangement compare-and-set did not affect one row"
      return entries.filter fun entry => !change.finds entry

inductive Choice (Row : Type) where
  | start (row : Row) (event : InputEventFacts)
  | candidates (count : Nat) (budget : WorkBudget)
  | finalize (budget : WorkBudget)

def stepPreflight (state : JoinState Row) (row : Row) (event : InputEventFacts) : Except Fault (JoinState Row) := do
  refuse state.current.isSome "Join input is already in progress"
  let own ← loadOwnExpectation (state.arrangement event.side) row event.weight
  let continuation ← JoinContinuation.startInput event own
  return { state with current := some { row := row, event := event, continuation := continuation } }

def requireCurrent (state : JoinState Row) : Except Fault (Current Row × InputProgress) :=
  match state.current with
  | none => .error (.failed "Join candidate phase omitted input progress")
  | some current =>
      match current.continuation.inputProgress with
      | none => .error (.failed "Join candidate phase omitted input progress")
      | some progress => .ok (current, progress)

def stepCandidates (spec : JoinSpec Row) (state : JoinState Row) (count : Nat) (budget : WorkBudget) :
    Except Fault (JoinState Row) := do
  let (current, progress) ← requireCurrent state
  let side := current.event.side
  let opposite := state.arrangement side.opposite
  let page := probeCandidates spec current progress opposite count
  let plan ← planActions spec.mode current.continuation current.event page budget
  let rows ← appendActions side current.row opposite plan.actions
  let entries ← applyCandidateChanges opposite plan.candidateChanges
  return { state with
    arrangement := setSide state.arrangement side.opposite entries
    current := some { current with continuation := plan.next }
    outputs := state.outputs ++ rows }

def ownProbe (spec : JoinSpec Row) (side : InputSide) (row : Row) (counts : MatchCounts) (own : OwnExpectation) :
    OwnStateProbe :=
  let outputBytes := if currentSideIsEligible spec.mode side counts then spec.singleBytes side row else 1
  match own.rowId with
  | none => .absent outputBytes
  | some rowId => .present rowId own.multiplicity own.counts outputBytes

def stepFinalize (spec : JoinSpec Row) (state : JoinState Row) (budget : WorkBudget) : Except Fault (JoinState Row) := do
  let (current, progress) ← requireCurrent state
  let side := current.event.side
  let own ← loadOwnExpectation (state.arrangement side) current.row current.event.weight
  refuse (decide (own ≠ progress.expectedOwn)) "Join own arrangement changed during its fanout"
  let probe := ownProbe spec side current.row progress.oppositeCounts own
  let plan ← planFinalize spec.mode current.continuation current.event probe budget
  let rows ← appendActions side current.row (state.arrangement side.opposite) plan.output.toList
  let entries ← applyOwnChange (state.arrangement side) (state.nextRowId side) current.row plan.ownChange
  return { state with
    arrangement := setSide state.arrangement side entries
    nextRowId := setSide state.nextRowId side (state.nextRowId side + 1)
    current := none
    consumed := state.consumed ++ [((side, current.row), current.event.weight)]
    outputs := state.outputs ++ rows }

def joinStep (spec : JoinSpec Row) (state : JoinState Row) (choice : Choice Row) : Except Fault (JoinState Row) :=
  match choice with
  | .start row event => stepPreflight state row event
  | .candidates count budget => stepCandidates spec state count budget
  | .finalize budget => stepFinalize spec state budget

-- The current bags: the events of all rows that are done.
def bagOf (consumed : List ((InputSide × Row) × Int)) : Bag Row := fun side row => weight consumed (side, row)

end Shiba.Join
