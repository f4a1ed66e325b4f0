import Shiba.Join.Continuation
import Shiba.Join.Scan

set_option autoImplicit false

namespace Shiba.Join

def Cell.ofCount (value : Option Nat) : Cell := .ofBigint (value.map Int.ofNat)

def Cell.ofLsn (value : Option Lsn) : Cell := (value.map Cell.pgLsn).getD .null

def DecodedFields.ofProgress (progress : InputProgress) : DecodedFields :=
  { eventWeight := some progress.eventWeight
    eventBytes := some progress.eventBytes
    ownRowId := progress.expectedOwn.rowId
    ownMultiplicity := some progress.expectedOwn.multiplicity
    ownMatch := some progress.expectedOwn.counts.matched
    ownUnknown := some progress.expectedOwn.counts.unknown
    candidateAfter := progress.candidateAfter
    accumulatedMatch := some progress.oppositeCounts.matched
    accumulatedUnknown := some progress.oppositeCounts.unknown }

def DecodedFields.ofContinuation : JoinContinuation → DecodedFields
  | .preflight _ _ => {}
  | .frontier continuation => { frontier := some continuation.frontier }
  | .probe progress | .finalize progress => .ofProgress progress
  | .pendingTransition progress candidate =>
      { DecodedFields.ofProgress progress with
        pendingRowId := some candidate.rowId
        pendingMultiplicity := some candidate.multiplicity
        pendingTruth := some candidate.truth.code
        pendingOldMatch := some candidate.oldCounts.matched
        pendingOldUnknown := some candidate.oldCounts.unknown
        pendingNewMatch := some candidate.newCounts.matched
        pendingNewUnknown := some candidate.newCounts.unknown }

def headCells (phase : JoinPhase) (side : InputSide) (positions : InputPositions) (fields : DecodedFields) :
    ContinuationColumn → Cell
  | .phase => .smallint phase.code
  | .inputSide => .smallint side.code
  | .leftStreamId => .bigint positions.left.streamId
  | .leftChunkSeq => .bigint positions.left.chunkSeq
  | .leftRowOrdinal => .bigint positions.left.rowOrdinal
  | .rightStreamId => .bigint positions.right.streamId
  | .rightChunkSeq => .bigint positions.right.chunkSeq
  | .rightRowOrdinal => .bigint positions.right.rowOrdinal
  | .eventWeight => .ofBigint fields.eventWeight
  | .eventBytes => .ofCount fields.eventBytes
  | .ownRowId => .ofBigint fields.ownRowId
  | .ownMultiplicity => .ofCount fields.ownMultiplicity
  | .ownMatchCount => .ofCount fields.ownMatch
  | .ownUnknownCount => .ofCount fields.ownUnknown
  | .candidateAfter => .ofBigint fields.candidateAfter
  | .accumulatedMatchCount => .ofCount fields.accumulatedMatch
  | .accumulatedUnknownCount => .ofCount fields.accumulatedUnknown
  | .pendingRowId => .ofBigint fields.pendingRowId
  | .pendingMultiplicity => .ofCount fields.pendingMultiplicity
  | .pendingTruth => .ofSmallint fields.pendingTruth
  | .pendingOldMatch => .ofCount fields.pendingOldMatch
  | .pendingOldUnknown => .ofCount fields.pendingOldUnknown
  | .pendingNewMatch => .ofCount fields.pendingNewMatch
  | .pendingNewUnknown => .ofCount fields.pendingNewUnknown
  | .frontierLsn => .ofLsn fields.frontier

-- The row that stands for a continuation.
def cellsOf (continuation : JoinContinuation) : ContinuationColumn → Cell :=
  headCells continuation.phase continuation.side continuation.positions (.ofContinuation continuation)

-- What the planner itself demands of a continuation that it resumes.
def JoinContinuation.Valid : JoinContinuation → Prop
  | .preflight positions _ => positions.validate = .ok ()
  | .probe progress | .finalize progress => progress.validate = .ok ()
  | .pendingTransition progress candidate => validatePendingCandidate progress candidate = .ok ()
  | .frontier continuation =>
      FrontierInputFacts.validate ⟨continuation.side, continuation.positions, continuation.frontier⟩ = .ok ()

section Reading

variable {row : ContinuationRow} {ordinal : Nat} {column : ContinuationColumn}

section

variable (placed : (selectContinuation row)[ordinal - 1]? = some (row.cell column).selected) (value : Option Int)

include placed

theorem read_smallint :
    optionalSmallint (selectContinuation row) ordinal = .ok value ↔ row.cell column = .ofSmallint value := by
  rw [optionalSmallint, placed]
  cases row.cell column <;> cases value <;> simp [Cell.selected, Cell.ofSmallint]

theorem read_bigint :
    optionalBigint (selectContinuation row) ordinal = .ok value ↔ row.cell column = .ofBigint value := by
  rw [optionalBigint, placed]
  cases row.cell column <;> cases value <;> simp [Cell.selected, Cell.ofBigint]

end

theorem required_value {α : Type} (value : Option α) (name : String) (result : α) :
    requiredValue value name = .ok result ↔ value = some result := by
  cases value <;> simp [requiredValue]

section

variable (placed : (selectContinuation row)[ordinal - 1]? = some (row.cell column).selected) (name : String)
  (value : Int)

include placed

theorem read_required_smallint :
    requiredSmallint (selectContinuation row) ordinal name = .ok value ↔ row.cell column = .smallint value := by
  rw [requiredSmallint, bind_ok_iff]
  simp only [read_smallint placed, required_value, exists_eq_right]
  rfl

theorem read_required_bigint :
    requiredBigint (selectContinuation row) ordinal name = .ok value ↔ row.cell column = .bigint value := by
  rw [requiredBigint, bind_ok_iff]
  simp only [read_bigint placed, required_value, exists_eq_right]
  rfl

end

theorem nonnegative_iff (value : Int) (name : String) (count : Nat) :
    nonnegative value name = .ok count ↔ value = count := by
  rw [nonnegative, refuse_bind_ok]
  simp only [decide_eq_false_iff_not]
  constructor
  · intro ⟨natural, same⟩
    have := Except.ok.inj same
    omega
  · intro same
    subst same
    exact ⟨by omega, rfl⟩

theorem read_count (placed : (selectContinuation row)[ordinal - 1]? = some (row.cell column).selected) (name : String)
    (count : Option Nat) :
    optionalNonnegative (selectContinuation row) ordinal name = .ok count ↔ row.cell column = .ofCount count := by
  rw [optionalNonnegative, bind_ok_iff]
  simp only [read_bigint placed]
  constructor
  · intro ⟨value, held, counted⟩
    cases value with
    | none =>
        obtain rfl := Except.ok.inj counted
        exact held
    | some value =>
        obtain ⟨natural, same, result⟩ := bind_ok_iff.mp counted
        obtain rfl := Except.ok.inj result
        rw [held, (nonnegative_iff _ _ _).mp same]
        rfl
  · intro held
    refine ⟨count.map Int.ofNat, held, ?_⟩
    cases count with
    | none => rfl
    | some natural =>
        refine bind_ok_iff.mpr ⟨natural, (nonnegative_iff _ _ _).mpr rfl, rfl⟩

end Reading

variable (row : ContinuationRow) (positions : InputPositions)

theorem read_frontier (frontier : Option Lsn) :
    optionalFrontier (selectContinuation row) 25 = .ok frontier ↔ row.cell .frontierLsn = .ofLsn frontier := by
  have placed : (selectContinuation row)[24]? = some (row.cell .frontierLsn).selected := rfl
  have admitted := row.admitted .frontierLsn
  have returned (value : Option Lsn) : (pure value : Except Fault (Option Lsn)) = .ok value := rfl
  rw [optionalFrontier, optionalText, placed]
  cases held : row.cell .frontierLsn with
  | null => cases frontier <;> simp [Cell.selected, Cell.ofLsn, ok_bind, returned]
  | pgLsn lsn =>
      rw [held] at admitted
      have fits : lsn < 2 ^ 64 := Nat.lt_of_le_of_lt (of_decide_eq_true admitted) (by decide)
      have read := parse_lsn_out lsn fits
      simp only [Cell.selected, ok_bind, read]
      cases frontier <;> simp [Cell.ofLsn, returned]
  | smallint value => rw [held] at admitted; cases admitted
  | bigint value => rw [held] at admitted; cases admitted
  | text value => rw [held] at admitted; cases admitted

-- The row holds these fields after its two positions.
structure Holds (row : ContinuationRow) (fields : DecodedFields) : Prop where
  eventWeight : row.cell .eventWeight = .ofBigint fields.eventWeight
  eventBytes : row.cell .eventBytes = .ofCount fields.eventBytes
  ownRowId : row.cell .ownRowId = .ofBigint fields.ownRowId
  ownMultiplicity : row.cell .ownMultiplicity = .ofCount fields.ownMultiplicity
  ownMatch : row.cell .ownMatchCount = .ofCount fields.ownMatch
  ownUnknown : row.cell .ownUnknownCount = .ofCount fields.ownUnknown
  candidateAfter : row.cell .candidateAfter = .ofBigint fields.candidateAfter
  accumulatedMatch : row.cell .accumulatedMatchCount = .ofCount fields.accumulatedMatch
  accumulatedUnknown : row.cell .accumulatedUnknownCount = .ofCount fields.accumulatedUnknown
  pendingRowId : row.cell .pendingRowId = .ofBigint fields.pendingRowId
  pendingMultiplicity : row.cell .pendingMultiplicity = .ofCount fields.pendingMultiplicity
  pendingTruth : row.cell .pendingTruth = .ofSmallint fields.pendingTruth
  pendingOldMatch : row.cell .pendingOldMatch = .ofCount fields.pendingOldMatch
  pendingOldUnknown : row.cell .pendingOldUnknown = .ofCount fields.pendingOldUnknown
  pendingNewMatch : row.cell .pendingNewMatch = .ofCount fields.pendingNewMatch
  pendingNewUnknown : row.cell .pendingNewUnknown = .ofCount fields.pendingNewUnknown
  frontier : row.cell .frontierLsn = .ofLsn fields.frontier

theorem decode_fields_iff (fields : DecodedFields) :
    decodeFields (selectContinuation row) = .ok fields ↔ Holds row fields := by
  constructor
  · intro ok
    unfold decodeFields at ok
    obtain ⟨eventWeight, readWeight, ok⟩ := bind_ok_iff.mp ok
    obtain ⟨eventBytes, readBytes, ok⟩ := bind_ok_iff.mp ok
    obtain ⟨ownRowId, readOwnRow, ok⟩ := bind_ok_iff.mp ok
    obtain ⟨ownMultiplicity, readOwn, ok⟩ := bind_ok_iff.mp ok
    obtain ⟨ownMatch, readOwnMatch, ok⟩ := bind_ok_iff.mp ok
    obtain ⟨ownUnknown, readOwnUnknown, ok⟩ := bind_ok_iff.mp ok
    obtain ⟨candidateAfter, readAfter, ok⟩ := bind_ok_iff.mp ok
    obtain ⟨accumulatedMatch, readMatch, ok⟩ := bind_ok_iff.mp ok
    obtain ⟨accumulatedUnknown, readUnknown, ok⟩ := bind_ok_iff.mp ok
    obtain ⟨pendingRowId, readPendingRow, ok⟩ := bind_ok_iff.mp ok
    obtain ⟨pendingMultiplicity, readPending, ok⟩ := bind_ok_iff.mp ok
    obtain ⟨pendingTruth, readTruth, ok⟩ := bind_ok_iff.mp ok
    obtain ⟨pendingOldMatch, readOldMatch, ok⟩ := bind_ok_iff.mp ok
    obtain ⟨pendingOldUnknown, readOldUnknown, ok⟩ := bind_ok_iff.mp ok
    obtain ⟨pendingNewMatch, readNewMatch, ok⟩ := bind_ok_iff.mp ok
    obtain ⟨pendingNewUnknown, readNewUnknown, ok⟩ := bind_ok_iff.mp ok
    obtain ⟨frontier, readFrontier, ok⟩ := bind_ok_iff.mp ok
    obtain rfl := Except.ok.inj ok
    exact
      { eventWeight := (read_bigint rfl _).mp readWeight
        eventBytes := (read_count rfl _ _).mp readBytes
        ownRowId := (read_bigint rfl _).mp readOwnRow
        ownMultiplicity := (read_count rfl _ _).mp readOwn
        ownMatch := (read_count rfl _ _).mp readOwnMatch
        ownUnknown := (read_count rfl _ _).mp readOwnUnknown
        candidateAfter := (read_bigint rfl _).mp readAfter
        accumulatedMatch := (read_count rfl _ _).mp readMatch
        accumulatedUnknown := (read_count rfl _ _).mp readUnknown
        pendingRowId := (read_bigint rfl _).mp readPendingRow
        pendingMultiplicity := (read_count rfl _ _).mp readPending
        pendingTruth := (read_smallint rfl _).mp readTruth
        pendingOldMatch := (read_count rfl _ _).mp readOldMatch
        pendingOldUnknown := (read_count rfl _ _).mp readOldUnknown
        pendingNewMatch := (read_count rfl _ _).mp readNewMatch
        pendingNewUnknown := (read_count rfl _ _).mp readNewUnknown
        frontier := (read_frontier row _).mp readFrontier }
  · intro holds
    rw [decodeFields, (read_bigint rfl _).mpr holds.eventWeight, ok_bind, (read_count rfl _ _).mpr holds.eventBytes, ok_bind,
      (read_bigint rfl _).mpr holds.ownRowId, ok_bind,
      (read_count rfl _ _).mpr holds.ownMultiplicity, ok_bind,
      (read_count rfl _ _).mpr holds.ownMatch, ok_bind,
      (read_count rfl _ _).mpr holds.ownUnknown, ok_bind,
      (read_bigint rfl _).mpr holds.candidateAfter, ok_bind,
      (read_count rfl _ _).mpr holds.accumulatedMatch, ok_bind,
      (read_count rfl _ _).mpr holds.accumulatedUnknown, ok_bind,
      (read_bigint rfl _).mpr holds.pendingRowId, ok_bind,
      (read_count rfl _ _).mpr holds.pendingMultiplicity, ok_bind,
      (read_smallint rfl _).mpr holds.pendingTruth, ok_bind,
      (read_count rfl _ _).mpr holds.pendingOldMatch, ok_bind,
      (read_count rfl _ _).mpr holds.pendingOldUnknown, ok_bind,
      (read_count rfl _ _).mpr holds.pendingNewMatch, ok_bind,
      (read_count rfl _ _).mpr holds.pendingNewUnknown, ok_bind,
      (read_frontier row _).mpr holds.frontier, ok_bind]
    rfl

theorem new_position_iff (streamId chunkSeq rowOrdinal : Int) (position : InputPosition) :
    InputPosition.new streamId chunkSeq rowOrdinal = .ok position ↔
      position = ⟨streamId, chunkSeq, rowOrdinal⟩ ∧ validateInputPosition position = .ok () := by
  rw [InputPosition.new, refuse_bind_ok, validateInputPosition, refuse_ok]
  constructor
  · intro ⟨inside, same⟩
    obtain rfl := Except.ok.inj same
    exact ⟨rfl, inside⟩
  · intro ⟨same, inside⟩
    subst same
    exact ⟨inside, rfl⟩

-- The row holds these positions.
structure Placed (row : ContinuationRow) (positions : InputPositions) : Prop where
  leftStreamId : row.cell .leftStreamId = .bigint positions.left.streamId
  leftChunkSeq : row.cell .leftChunkSeq = .bigint positions.left.chunkSeq
  leftRowOrdinal : row.cell .leftRowOrdinal = .bigint positions.left.rowOrdinal
  rightStreamId : row.cell .rightStreamId = .bigint positions.right.streamId
  rightChunkSeq : row.cell .rightChunkSeq = .bigint positions.right.chunkSeq
  rightRowOrdinal : row.cell .rightRowOrdinal = .bigint positions.right.rowOrdinal

theorem positions_parts :
    positions.validate = .ok () ↔
      validateInputPosition positions.left = .ok () ∧ validateInputPosition positions.right = .ok () := by
  rw [InputPositions.validate, bind_ok_iff]
  constructor
  · intro ⟨_, left, right⟩
    exact ⟨left, right⟩
  · intro ⟨left, right⟩
    exact ⟨(), left, right⟩

theorem decode_positions_iff :
    decodePositions (selectContinuation row) = .ok positions ↔ Placed row positions ∧ positions.validate = .ok () := by
  constructor
  · intro ok
    unfold decodePositions at ok
    obtain ⟨leftStream, readLeftStream, ok⟩ := bind_ok_iff.mp ok
    obtain ⟨leftChunk, readLeftChunk, ok⟩ := bind_ok_iff.mp ok
    obtain ⟨leftRow, readLeftRow, ok⟩ := bind_ok_iff.mp ok
    obtain ⟨left, madeLeft, ok⟩ := bind_ok_iff.mp ok
    obtain ⟨rightStream, readRightStream, ok⟩ := bind_ok_iff.mp ok
    obtain ⟨rightChunk, readRightChunk, ok⟩ := bind_ok_iff.mp ok
    obtain ⟨rightRow, readRightRow, ok⟩ := bind_ok_iff.mp ok
    obtain ⟨right, madeRight, ok⟩ := bind_ok_iff.mp ok
    obtain ⟨rfl, leftValid⟩ := (new_position_iff _ _ _ _).mp madeLeft
    obtain ⟨rfl, rightValid⟩ := (new_position_iff _ _ _ _).mp madeRight
    unfold InputPositions.new at ok
    have ok := past_check (past_check ok)
    obtain rfl := Except.ok.inj ok
    exact
      ⟨{ leftStreamId := (read_required_bigint rfl _ _).mp readLeftStream
         leftChunkSeq := (read_required_bigint rfl _ _).mp readLeftChunk
         leftRowOrdinal := (read_required_bigint rfl _ _).mp readLeftRow
         rightStreamId := (read_required_bigint rfl _ _).mp readRightStream
         rightChunkSeq := (read_required_bigint rfl _ _).mp readRightChunk
         rightRowOrdinal := (read_required_bigint rfl _ _).mp readRightRow },
       (positions_parts _).mpr ⟨leftValid, rightValid⟩⟩
  · intro ⟨placed, valid⟩
    obtain ⟨leftValid, rightValid⟩ := (positions_parts _).mp valid
    rw [decodePositions, (read_required_bigint rfl _ _).mpr placed.leftStreamId, ok_bind,
      (read_required_bigint rfl _ _).mpr placed.leftChunkSeq, ok_bind,
      (read_required_bigint rfl _ _).mpr placed.leftRowOrdinal, ok_bind,
      (new_position_iff _ _ _ _).mpr ⟨rfl, leftValid⟩, ok_bind,
      (read_required_bigint rfl _ _).mpr placed.rightStreamId, ok_bind,
      (read_required_bigint rfl _ _).mpr placed.rightChunkSeq, ok_bind,
      (read_required_bigint rfl _ _).mpr placed.rightRowOrdinal, ok_bind,
      (new_position_iff _ _ _ _).mpr ⟨rfl, rightValid⟩, ok_bind,
      InputPositions.new, leftValid, ok_bind, rightValid, ok_bind]
    rfl

end Shiba.Join
