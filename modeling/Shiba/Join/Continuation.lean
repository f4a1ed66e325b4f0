import Shiba.LsnText
import Shiba.Join.Planner

set_option autoImplicit false

namespace Shiba.Join

inductive JoinPhase where
  | preflight
  | probe
  | pendingTransition
  | finalize
  | frontier
deriving DecidableEq, Repr

def JoinPhase.code : JoinPhase → Int
  | .preflight => 1
  | .probe => 2
  | .pendingTransition => 3
  | .finalize => 4
  | .frontier => 5

def activePhase (value : Int) : Except Fault Int := do
  refuse (decide (value ≤ 0)) "active operator phase code must be positive"
  return value

def JoinPhase.fromCode (code : Int) : Except Fault JoinPhase :=
  if code = 1 then .ok .preflight
  else if code = 2 then .ok .probe
  else if code = 3 then .ok .pendingTransition
  else if code = 4 then .ok .finalize
  else if code = 5 then .ok .frontier
  else if code = 0 then .error (.failed "idle phase means that no Join continuation exists")
  else .error (.failed s!"unknown Join phase code {code}")

def InputSide.code : InputSide → Int
  | .left => 0
  | .right => 1

def InputSide.fromCode (code : Int) : Except Fault InputSide :=
  if code = 0 then .ok .left
  else if code = 1 then .ok .right
  else .error (.failed s!"unknown Join input side code {code}")

def MatchTruth.code : MatchTruth → Int
  | .false => 0
  | .true => 1
  | .unknown => -1

def MatchTruth.fromCode (code : Int) : Except Fault MatchTruth :=
  if code = 0 then .ok .false
  else if code = 1 then .ok .true
  else if code = -1 then .ok .unknown
  else .error (.failed s!"unknown Join match truth code {code}")

def InputPosition.new (streamId chunkSeq rowOrdinal : Int) : Except Fault InputPosition := do
  refuse (decide (streamId ≤ 0) || decide (chunkSeq ≤ 0) || decide (rowOrdinal < 0))
    "input position contains an invalid identifier"
  return ⟨streamId, chunkSeq, rowOrdinal⟩

def InputPositions.new (left right : InputPosition) : Except Fault InputPositions := do
  validateInputPosition left
  validateInputPosition right
  return ⟨left, right⟩

def MatchCounts.new (matched unknown : Nat) : Except Fault MatchCounts := do
  let counts : MatchCounts := ⟨matched, unknown⟩
  counts.validate
  return counts

def CandidateExpectation.new (rowId : Int) (multiplicity : Nat) (truth : MatchTruth) (oldCounts newCounts : MatchCounts) :
    Except Fault CandidateExpectation := do
  let expectation : CandidateExpectation := ⟨rowId, multiplicity, truth, oldCounts, newCounts⟩
  expectation.validate
  return expectation

def InputProgress.restore (positions : InputPositions) (side : InputSide) (eventWeight : Int) (eventBytes : Nat)
    (expectedOwn : OwnExpectation) (candidateAfter : Option Int) (oppositeCounts : MatchCounts) :
    Except Fault InputProgress := do
  let progress : InputProgress := ⟨positions, side, eventWeight, eventBytes, expectedOwn, candidateAfter, oppositeCounts⟩
  progress.validate
  return progress

structure FrontierInputFacts where
  side : InputSide
  positions : InputPositions
  frontier : Lsn
deriving DecidableEq, Repr

def FrontierInputFacts.validate (facts : FrontierInputFacts) : Except Fault Unit := do
  facts.positions.validate
  refuse (decide (facts.frontier = 0)) "Join input frontier is zero"

def JoinContinuation.startPreflight (positions : InputPositions) (side : InputSide) : Except Fault JoinContinuation := do
  positions.validate
  return .preflight positions side

def JoinContinuation.startFrontier (facts : FrontierInputFacts) : Except Fault JoinContinuation := do
  facts.validate
  return .frontier ⟨facts.positions, facts.side, facts.frontier⟩

def JoinContinuation.phase : JoinContinuation → JoinPhase
  | .preflight _ _ => .preflight
  | .probe _ => .probe
  | .pendingTransition _ _ => .pendingTransition
  | .finalize _ => .finalize
  | .frontier _ => .frontier

def JoinContinuation.restoreInput (phase : JoinPhase) (progress : InputProgress) (pending : Option CandidateExpectation) :
    Except Fault JoinContinuation := do
  progress.validate
  match phase, pending with
  | .preflight, _ => .error (.failed "Preflight phase cannot decode an input-progress continuation")
  | .probe, some _ => .error (.failed "Probe continuation contains a pending candidate")
  | .probe, none => return .probe progress
  | .pendingTransition, none => .error (.failed "pending-transition continuation omitted its candidate")
  | .pendingTransition, some candidate => do
      candidate.validate
      validatePendingCandidate progress candidate
      return .pendingTransition progress candidate
  | .finalize, some _ => .error (.failed "Finalize continuation contains a pending candidate")
  | .finalize, none => return .finalize progress
  | .frontier, _ => .error (.failed "Frontier phase cannot decode an input continuation")

-- The table's columns after its singleton.
inductive ContinuationColumn where
  | phase
  | inputSide
  | leftStreamId
  | leftChunkSeq
  | leftRowOrdinal
  | rightStreamId
  | rightChunkSeq
  | rightRowOrdinal
  | eventWeight
  | eventBytes
  | ownRowId
  | ownMultiplicity
  | ownMatchCount
  | ownUnknownCount
  | candidateAfter
  | accumulatedMatchCount
  | accumulatedUnknownCount
  | pendingRowId
  | pendingMultiplicity
  | pendingTruth
  | pendingOldMatch
  | pendingOldUnknown
  | pendingNewMatch
  | pendingNewUnknown
  | frontierLsn
deriving DecidableEq, Repr

inductive Cell where
  | null
  | smallint (value : Int)
  | bigint (value : Int)
  | text (value : String)
  | pgLsn (value : Lsn)
deriving DecidableEq, Repr

inductive ColumnType where
  | smallint
  | bigint
  | pgLsn
deriving DecidableEq, Repr

def isBigint (value : Int) : Bool := decide (-(bigintMax : Int) - 1 ≤ value) && decide (value ≤ bigintMax)

def isSmallint (value : Int) : Bool := decide (-32768 ≤ value) && decide (value ≤ 32767)

def ContinuationColumn.type : ContinuationColumn → ColumnType
  | .phase | .inputSide | .pendingTruth => .smallint
  | .frontierLsn => .pgLsn
  | _ => .bigint

def ContinuationColumn.nullable : ContinuationColumn → Bool
  | .phase | .inputSide | .leftStreamId | .leftChunkSeq | .leftRowOrdinal | .rightStreamId | .rightChunkSeq
  | .rightRowOrdinal => false
  | _ => true

def ContinuationColumn.admits (column : ContinuationColumn) (cell : Cell) : Bool :=
  match column.type, cell with
  | _, .null => column.nullable
  | .smallint, .smallint value => isSmallint value
  | .bigint, .bigint value => isBigint value
  | .pgLsn, .pgLsn value => decide (value ≤ u64Max)
  | _, _ => false

-- CONTINUATION_COLUMNS, which the INSERT names in this order.
def continuationColumns : List ContinuationColumn :=
  [.phase, .inputSide, .leftStreamId, .leftChunkSeq, .leftRowOrdinal, .rightStreamId, .rightChunkSeq, .rightRowOrdinal,
   .eventWeight, .eventBytes, .ownRowId, .ownMultiplicity, .ownMatchCount, .ownUnknownCount, .candidateAfter,
   .accumulatedMatchCount, .accumulatedUnknownCount, .pendingRowId, .pendingMultiplicity, .pendingTruth,
   .pendingOldMatch, .pendingOldUnknown, .pendingNewMatch, .pendingNewUnknown, .frontierLsn]

theorem every_column (column : ContinuationColumn) : column ∈ continuationColumns := by
  cases column <;> decide

structure ContinuationRow where
  cell : ContinuationColumn → Cell
  admitted : ∀ column : ContinuationColumn, column.admits (cell column) = true

-- The column's parameter_sql: only frontier_lsn casts its parameter.
def ContinuationColumn.cast (column : ContinuationColumn) (argument : Cell) : Except Fault Cell :=
  match column, argument with
  | .frontierLsn, .text value => do
      let lsn ← pgLsnIn value
      return .pgLsn lsn
  | _, _ => return argument

def castArguments : List (ContinuationColumn × Cell) → Except Fault (List (ContinuationColumn × Cell))
  | [] => return []
  | (column, argument) :: rest => do
      let cell ← column.cast argument
      let cells ← castArguments rest
      return (column, cell) :: cells

def storeCells (cell : ContinuationColumn → Cell) : Except Fault ContinuationRow :=
  if admitted : continuationColumns.all (fun column => column.admits (cell column)) = true then
    .ok ⟨cell, fun column => List.all_eq_true.mp admitted column (every_column column)⟩
  else .error (.raised "23502" "the row does not fit the continuation's columns")

-- INSERT INTO continuation(columns) VALUES(true,$1,...,$25).
def insertContinuation (arguments : List Cell) : Except Fault ContinuationRow := do
  refuse (decide (arguments.length ≠ continuationColumns.length)) "Join continuation field count disagrees with its ABI"
  let cells ← castArguments (continuationColumns.zip arguments)
  storeCells fun column => (cells.lookup column).getD .null

structure JoinFields where
  phase : Int
  inputSide : Int
  leftStreamId : Int
  leftChunkSeq : Int
  leftRowOrdinal : Int
  rightStreamId : Int
  rightChunkSeq : Int
  rightRowOrdinal : Int
  eventWeight : Option Int := none
  eventBytes : Option Int := none
  ownRowId : Option Int := none
  ownMultiplicity : Option Int := none
  ownMatchCount : Option Int := none
  ownUnknownCount : Option Int := none
  candidateAfter : Option Int := none
  accumulatedMatchCount : Option Int := none
  accumulatedUnknownCount : Option Int := none
  pendingRowId : Option Int := none
  pendingMultiplicity : Option Int := none
  pendingTruth : Option Int := none
  pendingOldMatch : Option Int := none
  pendingOldUnknown : Option Int := none
  pendingNewMatch : Option Int := none
  pendingNewUnknown : Option Int := none
  frontierLsn : Option String := none
deriving DecidableEq, Repr

def joinI64 (value : Nat) (field : String) : Except Fault Int := do
  refuse (decide (bigintMax < value)) s!"Join {field} exceeds bigint"
  return value

def encodeProgress (fields : JoinFields) (progress : InputProgress) : Except Fault JoinFields := do
  let eventBytes ← joinI64 progress.eventBytes "event bytes"
  let own := progress.expectedOwn
  let ownMultiplicity ← joinI64 own.multiplicity "own multiplicity"
  let ownMatchCount ← joinI64 own.counts.matched "own match count"
  let ownUnknownCount ← joinI64 own.counts.unknown "own unknown count"
  let accumulatedMatchCount ← joinI64 progress.oppositeCounts.matched "accumulated match count"
  let accumulatedUnknownCount ← joinI64 progress.oppositeCounts.unknown "accumulated unknown count"
  let encoded : JoinFields := { fields with
    eventWeight := some progress.eventWeight
    eventBytes := some eventBytes
    ownRowId := own.rowId
    ownMultiplicity := some ownMultiplicity
    ownMatchCount := some ownMatchCount
    ownUnknownCount := some ownUnknownCount
    candidateAfter := progress.candidateAfter
    accumulatedMatchCount := some accumulatedMatchCount
    accumulatedUnknownCount := some accumulatedUnknownCount }
  return encoded

def encodeCandidate (fields : JoinFields) (candidate : CandidateExpectation) : Except Fault JoinFields := do
  let pendingMultiplicity ← joinI64 candidate.multiplicity "pending multiplicity"
  let pendingOldMatch ← joinI64 candidate.oldCounts.matched "pending old match"
  let pendingOldUnknown ← joinI64 candidate.oldCounts.unknown "pending old unknown"
  let pendingNewMatch ← joinI64 candidate.newCounts.matched "pending new match"
  let pendingNewUnknown ← joinI64 candidate.newCounts.unknown "pending new unknown"
  let encoded : JoinFields := { fields with
    pendingRowId := some candidate.rowId
    pendingMultiplicity := some pendingMultiplicity
    pendingTruth := some candidate.truth.code
    pendingOldMatch := some pendingOldMatch
    pendingOldUnknown := some pendingOldUnknown
    pendingNewMatch := some pendingNewMatch
    pendingNewUnknown := some pendingNewUnknown }
  return encoded

def JoinContinuation.positions : JoinContinuation → InputPositions
  | .preflight positions _ => positions
  | .probe progress | .pendingTransition progress _ | .finalize progress => progress.positions
  | .frontier continuation => continuation.positions

def JoinContinuation.side : JoinContinuation → InputSide
  | .preflight _ side => side
  | .probe progress | .pendingTransition progress _ | .finalize progress => progress.side
  | .frontier continuation => continuation.side

def continuationFields (continuation : JoinContinuation) : Except Fault JoinFields :=
  let positions := continuation.positions
  let fields : JoinFields :=
    { phase := continuation.phase.code
      inputSide := continuation.side.code
      leftStreamId := positions.left.streamId
      leftChunkSeq := positions.left.chunkSeq
      leftRowOrdinal := positions.left.rowOrdinal
      rightStreamId := positions.right.streamId
      rightChunkSeq := positions.right.chunkSeq
      rightRowOrdinal := positions.right.rowOrdinal }
  match continuation with
  | .preflight _ _ => .ok fields
  | .frontier continuation => .ok { fields with frontierLsn := some (formatLsn continuation.frontier) }
  | .probe progress | .finalize progress => encodeProgress fields progress
  | .pendingTransition progress candidate => do
      let fields ← encodeProgress fields progress
      encodeCandidate fields candidate

def Cell.ofSmallint (value : Option Int) : Cell := (value.map Cell.smallint).getD .null

def Cell.ofBigint (value : Option Int) : Cell := (value.map Cell.bigint).getD .null

def Cell.ofText (value : Option String) : Cell := (value.map Cell.text).getD .null

def continuationArguments (fields : JoinFields) : List Cell :=
  [.smallint fields.phase, .smallint fields.inputSide, .bigint fields.leftStreamId, .bigint fields.leftChunkSeq,
   .bigint fields.leftRowOrdinal, .bigint fields.rightStreamId, .bigint fields.rightChunkSeq,
   .bigint fields.rightRowOrdinal, .ofBigint fields.eventWeight, .ofBigint fields.eventBytes, .ofBigint fields.ownRowId,
   .ofBigint fields.ownMultiplicity, .ofBigint fields.ownMatchCount, .ofBigint fields.ownUnknownCount,
   .ofBigint fields.candidateAfter, .ofBigint fields.accumulatedMatchCount, .ofBigint fields.accumulatedUnknownCount,
   .ofBigint fields.pendingRowId, .ofBigint fields.pendingMultiplicity, .ofSmallint fields.pendingTruth,
   .ofBigint fields.pendingOldMatch, .ofBigint fields.pendingOldUnknown, .ofBigint fields.pendingNewMatch,
   .ofBigint fields.pendingNewUnknown, .ofText fields.frontierLsn]

def encodeContinuation (continuation : JoinContinuation) : Except Fault ContinuationRow := do
  let fields ← continuationFields continuation
  insertContinuation (continuationArguments fields)

-- The SELECT list of load_continuation; frontier_lsn is read as text.
def selectedColumns : List ContinuationColumn :=
  [.phase, .inputSide, .leftStreamId, .leftChunkSeq, .leftRowOrdinal, .rightStreamId, .rightChunkSeq, .rightRowOrdinal,
   .eventWeight, .eventBytes, .ownRowId, .ownMultiplicity, .ownMatchCount, .ownUnknownCount, .candidateAfter,
   .accumulatedMatchCount, .accumulatedUnknownCount, .pendingRowId, .pendingMultiplicity, .pendingTruth,
   .pendingOldMatch, .pendingOldUnknown, .pendingNewMatch, .pendingNewUnknown, .frontierLsn]

def Cell.selected : Cell → Cell
  | .pgLsn lsn => .text (pgLsnOut lsn)
  | cell => cell

def selectContinuation (row : ContinuationRow) : List Cell := selectedColumns.map fun column => (row.cell column).selected

-- Ordinals count from 1.
def optionalSmallint (row : List Cell) (ordinal : Nat) : Except Fault (Option Int) :=
  match row[ordinal - 1]? with
  | some .null => .ok none
  | some (.smallint value) => .ok (some value)
  | _ => .error (.failed "incompatible column type")

def optionalBigint (row : List Cell) (ordinal : Nat) : Except Fault (Option Int) :=
  match row[ordinal - 1]? with
  | some .null => .ok none
  | some (.bigint value) => .ok (some value)
  | _ => .error (.failed "incompatible column type")

def optionalText (row : List Cell) (ordinal : Nat) : Except Fault (Option String) :=
  match row[ordinal - 1]? with
  | some .null => .ok none
  | some (.text value) => .ok (some value)
  | _ => .error (.failed "incompatible column type")

def requiredValue {α : Type} (value : Option α) (name : String) : Except Fault α :=
  match value with
  | some value => .ok value
  | none => .error (.failed s!"database returned NULL {name}")

def requiredSmallint (row : List Cell) (ordinal : Nat) (name : String) : Except Fault Int := do
  let value ← optionalSmallint row ordinal
  requiredValue value name

def requiredBigint (row : List Cell) (ordinal : Nat) (name : String) : Except Fault Int := do
  let value ← optionalBigint row ordinal
  requiredValue value name

def nonnegative (value : Int) (name : String) : Except Fault Nat := do
  refuse (decide (value < 0)) s!"{name} is negative"
  return value.toNat

def optionalNonnegative (row : List Cell) (ordinal : Nat) (name : String) : Except Fault (Option Nat) := do
  let value ← optionalBigint row ordinal
  match value with
  | some value => do
      let count ← nonnegative value name
      return some count
  | none => return none

def optionalFrontier (row : List Cell) (ordinal : Nat) : Except Fault (Option Lsn) := do
  let value ← optionalText row ordinal
  match value with
  | some value =>
      match parseLsn value with
      | .ok lsn => return some lsn
      | .error (.failed message) => .error (.failed s!"invalid Join frontier LSN: {message}")
      | .error fault => .error fault
  | none => return none

-- What decode_continuation reads after the two positions.
structure DecodedFields where
  eventWeight : Option Int := none
  eventBytes : Option Nat := none
  ownRowId : Option Int := none
  ownMultiplicity : Option Nat := none
  ownMatch : Option Nat := none
  ownUnknown : Option Nat := none
  candidateAfter : Option Int := none
  accumulatedMatch : Option Nat := none
  accumulatedUnknown : Option Nat := none
  pendingRowId : Option Int := none
  pendingMultiplicity : Option Nat := none
  pendingTruth : Option Int := none
  pendingOldMatch : Option Nat := none
  pendingOldUnknown : Option Nat := none
  pendingNewMatch : Option Nat := none
  pendingNewUnknown : Option Nat := none
  frontier : Option Lsn := none
deriving DecidableEq, Repr

def decodeFields (row : List Cell) : Except Fault DecodedFields := do
  let eventWeight ← optionalBigint row 9
  let eventBytes ← optionalNonnegative row 10 "Join event bytes"
  let ownRowId ← optionalBigint row 11
  let ownMultiplicity ← optionalNonnegative row 12 "Join own multiplicity"
  let ownMatch ← optionalNonnegative row 13 "Join own match count"
  let ownUnknown ← optionalNonnegative row 14 "Join own unknown count"
  let candidateAfter ← optionalBigint row 15
  let accumulatedMatch ← optionalNonnegative row 16 "Join accumulated match count"
  let accumulatedUnknown ← optionalNonnegative row 17 "Join accumulated unknown count"
  let pendingRowId ← optionalBigint row 18
  let pendingMultiplicity ← optionalNonnegative row 19 "Join pending multiplicity"
  let pendingTruth ← optionalSmallint row 20
  let pendingOldMatch ← optionalNonnegative row 21 "Join pending old match count"
  let pendingOldUnknown ← optionalNonnegative row 22 "Join pending old unknown count"
  let pendingNewMatch ← optionalNonnegative row 23 "Join pending new match count"
  let pendingNewUnknown ← optionalNonnegative row 24 "Join pending new unknown count"
  let frontier ← optionalFrontier row 25
  return ⟨eventWeight, eventBytes, ownRowId, ownMultiplicity, ownMatch, ownUnknown, candidateAfter, accumulatedMatch,
    accumulatedUnknown, pendingRowId, pendingMultiplicity, pendingTruth, pendingOldMatch, pendingOldUnknown,
    pendingNewMatch, pendingNewUnknown, frontier⟩

def DecodedFields.dataFields (fields : DecodedFields) : List Bool :=
  [fields.eventWeight.isSome, fields.eventBytes.isSome, fields.ownMultiplicity.isSome, fields.ownMatch.isSome,
   fields.ownUnknown.isSome, fields.accumulatedMatch.isSome, fields.accumulatedUnknown.isSome]

def DecodedFields.pendingFields (fields : DecodedFields) : List Bool :=
  [fields.pendingRowId.isSome, fields.pendingMultiplicity.isSome, fields.pendingTruth.isSome,
   fields.pendingOldMatch.isSome, fields.pendingOldUnknown.isSome, fields.pendingNewMatch.isSome,
   fields.pendingNewUnknown.isSome]

def DecodedFields.progress (fields : DecodedFields) (positions : InputPositions) (side : InputSide) :
    Except Fault InputProgress :=
  match fields.eventWeight, fields.eventBytes, fields.ownMultiplicity, fields.ownMatch, fields.ownUnknown,
    fields.accumulatedMatch, fields.accumulatedUnknown, fields.frontier with
  | some eventWeight, some eventBytes, some ownMultiplicity, some ownMatch, some ownUnknown, some accumulatedMatch,
    some accumulatedUnknown, none => do
      let ownCounts ← MatchCounts.new ownMatch ownUnknown
      let own : OwnExpectation := ⟨fields.ownRowId, ownMultiplicity, ownCounts⟩
      own.validate
      let accumulated ← MatchCounts.new accumulatedMatch accumulatedUnknown
      InputProgress.restore positions side eventWeight eventBytes own fields.candidateAfter accumulated
  | _, _, _, _, _, _, _, _ => .error (.failed "Join data continuation omitted required scalar fields")

def DecodedFields.pending (fields : DecodedFields) : Except Fault (Option CandidateExpectation) :=
  match fields.pendingRowId, fields.pendingMultiplicity, fields.pendingTruth, fields.pendingOldMatch,
    fields.pendingOldUnknown, fields.pendingNewMatch, fields.pendingNewUnknown with
  | some rowId, some multiplicity, some truth, some oldMatch, some oldUnknown, some newMatch, some newUnknown => do
      let truth ← MatchTruth.fromCode truth
      let oldCounts ← MatchCounts.new oldMatch oldUnknown
      let newCounts ← MatchCounts.new newMatch newUnknown
      let candidate ← CandidateExpectation.new rowId multiplicity truth oldCounts newCounts
      return some candidate
  | _, _, _, _, _, _, _ => do
      refuse (fields.pendingFields.any id) "Join pending candidate fields are incomplete"
      return none

def restoreContinuation (phase : JoinPhase) (side : InputSide) (positions : InputPositions) (fields : DecodedFields) :
    Except Fault JoinContinuation :=
  match phase with
  | .preflight => do
      refuse (fields.dataFields.any id || fields.ownRowId.isSome || fields.candidateAfter.isSome ||
          fields.pendingFields.any id || fields.frontier.isSome)
        "Join Preflight continuation contains phase-incompatible fields"
      JoinContinuation.startPreflight positions side
  | .frontier => do
      refuse (fields.dataFields.any id || fields.ownRowId.isSome || fields.candidateAfter.isSome ||
          fields.pendingFields.any id)
        "Join Frontier continuation contains data-event fields"
      match fields.frontier with
      | some frontier => JoinContinuation.startFrontier ⟨side, positions, frontier⟩
      | none => .error (.failed "Join Frontier continuation omitted its frontier")
  | .probe | .pendingTransition | .finalize => do
      let progress ← fields.progress positions side
      let pending ← fields.pending
      JoinContinuation.restoreInput phase progress pending

def decodePositions (row : List Cell) : Except Fault InputPositions := do
  let leftStream ← requiredBigint row 3 "Join left stream"
  let leftChunk ← requiredBigint row 4 "Join left chunk"
  let leftRow ← requiredBigint row 5 "Join left row"
  let left ← InputPosition.new leftStream leftChunk leftRow
  let rightStream ← requiredBigint row 6 "Join right stream"
  let rightChunk ← requiredBigint row 7 "Join right chunk"
  let rightRow ← requiredBigint row 8 "Join right row"
  let right ← InputPosition.new rightStream rightChunk rightRow
  InputPositions.new left right

def decodeContinuation (row : List Cell) : Except Fault JoinContinuation := do
  let code ← requiredSmallint row 1 "Join phase"
  let code ← activePhase code
  let phase ← JoinPhase.fromCode code
  let side ← requiredSmallint row 2 "Join input side"
  let side ← InputSide.fromCode side
  let positions ← decodePositions row
  let fields ← decodeFields row
  restoreContinuation phase side positions fields

def loadContinuation (row : ContinuationRow) : Except Fault JoinContinuation := decodeContinuation (selectContinuation row)

end Shiba.Join
