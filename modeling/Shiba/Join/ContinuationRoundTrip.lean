import Shiba.Join.ContinuationRestore
import Shiba.Join.PageAccepted

set_option autoImplicit false

namespace Shiba.Join

open Shiba.Execution

section Writing

variable (continuation : JoinContinuation) (row : ContinuationRow) (held : row.cell = cellsOf continuation)

def JoinFields.ofContinuation (continuation : JoinContinuation) : JoinFields :=
  let positions := continuation.positions
  let fields := DecodedFields.ofContinuation continuation
  { phase := continuation.phase.code
    inputSide := continuation.side.code
    leftStreamId := positions.left.streamId
    leftChunkSeq := positions.left.chunkSeq
    leftRowOrdinal := positions.left.rowOrdinal
    rightStreamId := positions.right.streamId
    rightChunkSeq := positions.right.chunkSeq
    rightRowOrdinal := positions.right.rowOrdinal
    eventWeight := fields.eventWeight
    eventBytes := fields.eventBytes.map Int.ofNat
    ownRowId := fields.ownRowId
    ownMultiplicity := fields.ownMultiplicity.map Int.ofNat
    ownMatchCount := fields.ownMatch.map Int.ofNat
    ownUnknownCount := fields.ownUnknown.map Int.ofNat
    candidateAfter := fields.candidateAfter
    accumulatedMatchCount := fields.accumulatedMatch.map Int.ofNat
    accumulatedUnknownCount := fields.accumulatedUnknown.map Int.ofNat
    pendingRowId := fields.pendingRowId
    pendingMultiplicity := fields.pendingMultiplicity.map Int.ofNat
    pendingTruth := fields.pendingTruth
    pendingOldMatch := fields.pendingOldMatch.map Int.ofNat
    pendingOldUnknown := fields.pendingOldUnknown.map Int.ofNat
    pendingNewMatch := fields.pendingNewMatch.map Int.ofNat
    pendingNewUnknown := fields.pendingNewUnknown.map Int.ofNat
    frontierLsn := fields.frontier.map formatLsn }

theorem join_i64_ok (value : Nat) (field : String) (fits : value ≤ bigintMax) : joinI64 value field = .ok value := by
  rw [joinI64, refuse_false (decide_eq_false (Nat.not_lt.mpr fits)), ok_bind]
  rfl

-- A count that the row holds is a bigint.
theorem held_fits (row : ContinuationRow) (column : ContinuationColumn) (value : Nat) (wide : column.type = .bigint)
    (same : row.cell column = .ofCount (some value)) : value ≤ bigintMax := by
  have admitted := row.admitted column
  rw [same] at admitted
  simp only [ContinuationColumn.admits, wide, Cell.ofCount, Cell.ofBigint, Option.map_some, Option.getD_some] at admitted
  have upper := of_decide_eq_true (Bool.and_eq_true_iff.mp admitted).2
  exact Int.ofNat_le.mp upper

include held in
theorem encode_progress_ok (fields : JoinFields) {progress : InputProgress}
    (underway : continuation.inputProgress = some progress) :
    encodeProgress fields progress = .ok { fields with
      eventWeight := some progress.eventWeight
      eventBytes := some progress.eventBytes
      ownRowId := progress.expectedOwn.rowId
      ownMultiplicity := some progress.expectedOwn.multiplicity
      ownMatchCount := some progress.expectedOwn.counts.matched
      ownUnknownCount := some progress.expectedOwn.counts.unknown
      candidateAfter := progress.candidateAfter
      accumulatedMatchCount := some progress.oppositeCounts.matched
      accumulatedUnknownCount := some progress.oppositeCounts.unknown } := by
  have counts (column : ContinuationColumn) := congrFun held column
  have known : cellsOf continuation .eventBytes = .ofCount (some progress.eventBytes) ∧
      cellsOf continuation .ownMultiplicity = .ofCount (some progress.expectedOwn.multiplicity) ∧
      cellsOf continuation .ownMatchCount = .ofCount (some progress.expectedOwn.counts.matched) ∧
      cellsOf continuation .ownUnknownCount = .ofCount (some progress.expectedOwn.counts.unknown) ∧
      cellsOf continuation .accumulatedMatchCount = .ofCount (some progress.oppositeCounts.matched) ∧
      cellsOf continuation .accumulatedUnknownCount = .ofCount (some progress.oppositeCounts.unknown) := by
    cases continuation with
    | preflight _ _ => cases underway
    | frontier _ => cases underway
    | probe other | pendingTransition other _ | finalize other =>
        obtain rfl := Option.some.inj underway
        exact ⟨rfl, rfl, rfl, rfl, rfl, rfl⟩
  obtain ⟨bytes, own, ownMatch, ownUnknown, matched, unknown⟩ := known
  simp only [encodeProgress, join_i64_ok _ _ (held_fits row .eventBytes _ rfl ((counts _).trans bytes)),
    join_i64_ok _ _ (held_fits row .ownMultiplicity _ rfl ((counts _).trans own)),
    join_i64_ok _ _ (held_fits row .ownMatchCount _ rfl ((counts _).trans ownMatch)),
    join_i64_ok _ _ (held_fits row .ownUnknownCount _ rfl ((counts _).trans ownUnknown)),
    join_i64_ok _ _ (held_fits row .accumulatedMatchCount _ rfl ((counts _).trans matched)),
    join_i64_ok _ _ (held_fits row .accumulatedUnknownCount _ rfl ((counts _).trans unknown)), ok_bind]
  rfl

include held in
theorem continuation_fields_ok : continuationFields continuation = .ok (.ofContinuation continuation) := by
  have counts (column : ContinuationColumn) := congrFun held column
  cases continuation with
  | preflight _ _ => rfl
  | frontier _ => rfl
  | probe progress => exact encode_progress_ok (.probe progress) row held _ rfl
  | finalize progress => exact encode_progress_ok (.finalize progress) row held _ rfl
  | pendingTransition progress candidate =>
      rw [continuationFields]
      simp only [encode_progress_ok (.pendingTransition progress candidate) row held _ rfl, ok_bind]
      rw [encodeCandidate, join_i64_ok _ _ (held_fits row .pendingMultiplicity _ rfl (counts _)), ok_bind,
        join_i64_ok _ _ (held_fits row .pendingOldMatch _ rfl (counts _)), ok_bind,
        join_i64_ok _ _ (held_fits row .pendingOldUnknown _ rfl (counts _)), ok_bind,
        join_i64_ok _ _ (held_fits row .pendingNewMatch _ rfl (counts _)), ok_bind,
        join_i64_ok _ _ (held_fits row .pendingNewUnknown _ rfl (counts _)), ok_bind]
      rfl

theorem cast_arguments (pairs : List (ContinuationColumn × Cell)) (cell : ContinuationColumn → Cell)
    (aligned : ∀ pair ∈ pairs, pair.1.cast pair.2 = .ok (cell pair.1)) :
    castArguments pairs = .ok (pairs.map fun pair => (pair.1, cell pair.1)) := by
  induction pairs with
  | nil => rfl
  | cons pair rest ih =>
      obtain ⟨column, argument⟩ := pair
      rw [castArguments, aligned (column, argument) List.mem_cons_self, ok_bind,
        ih (fun other member => aligned other (List.mem_cons_of_mem _ member)), ok_bind]
      rfl

-- $25::pg_lsn reads back the formatted frontier.
theorem frontier_cast {frontier : Option Lsn} (fits : ∀ lsn, frontier = some lsn → lsn ≤ u64Max) :
    ContinuationColumn.frontierLsn.cast (.ofText (frontier.map formatLsn)) = .ok (.ofLsn frontier) := by
  cases frontier with
  | none => rfl
  | some lsn =>
      have small : lsn < 2 ^ 64 := Nat.lt_of_le_of_lt (fits lsn rfl) (by decide)
      exact bind_ok_iff.mpr ⟨lsn, pg_lsn_in_format lsn small, rfl⟩

theorem frontier_fits (row : ContinuationRow) (frontier : Option Lsn) (same : row.cell .frontierLsn = .ofLsn frontier)
    (lsn : Lsn) (some : frontier = some lsn) : lsn ≤ u64Max := by
  have admitted := row.admitted .frontierLsn
  rw [same, some] at admitted
  exact of_decide_eq_true admitted

include held in
theorem encode_held : encodeContinuation continuation = .ok row := by
  have framed := frontier_cast (frontier_fits row _ (congrFun held .frontierLsn))
  have aligned : ∀ pair ∈ continuationColumns.zip (continuationArguments (.ofContinuation continuation)),
      pair.1.cast pair.2 = .ok (row.cell pair.1) := by
    rw [held]
    simp only [continuationColumns, continuationArguments, List.zip_cons_cons, List.zip_nil_right, List.forall_mem_cons]
    exact ⟨rfl, rfl, rfl, rfl, rfl, rfl, rfl, rfl, rfl, rfl, rfl, rfl, rfl, rfl, rfl, rfl, rfl, rfl, rfl, rfl, rfl, rfl,
      rfl, rfl, framed, fun _ wrong => (by cases wrong)⟩
  have found (column : ContinuationColumn) :
      ((continuationColumns.map fun column => (column, row.cell column)).lookup column).getD .null = row.cell column := by
    cases column <;> rfl
  have stored : storeCells row.cell = .ok row :=
    dif_pos (List.all_eq_true.mpr fun column _ => row.admitted column)
  rw [encodeContinuation, continuation_fields_ok continuation row held, ok_bind, insertContinuation,
    refuse_false (by rfl), ok_bind, cast_arguments _ row.cell aligned, ok_bind]
  refine Eq.trans ?_ stored
  exact congrArg storeCells (funext found)

end Writing

end Shiba.Join
