import Shiba.Join.ContinuationRows

set_option autoImplicit false

namespace Shiba.Join

theorem phase_from_code (code : Int) (phase : JoinPhase) : JoinPhase.fromCode code = .ok phase ↔ code = phase.code := by
  constructor
  · intro ok
    unfold JoinPhase.fromCode at ok
    repeat' split at ok
    all_goals first | cases ok; assumption | cases ok
  · intro same
    subst same
    cases phase <;> rfl

section

variable (fields : DecodedFields) (phase : JoinPhase) (progress : InputProgress)
  (pending : Option CandidateExpectation) (continuation : JoinContinuation)

theorem active_phase : activePhase phase.code = .ok phase.code := by
  cases phase <;> rfl

theorem side_from_code (code : Int) (side : InputSide) : InputSide.fromCode code = .ok side ↔ code = side.code := by
  constructor
  · intro ok
    unfold InputSide.fromCode at ok
    repeat' split at ok
    all_goals first | cases ok; assumption | cases ok
  · intro same
    subst same
    cases side <;> rfl

theorem truth_from_code (code : Int) (truth : MatchTruth) : MatchTruth.fromCode code = .ok truth ↔ code = truth.code := by
  constructor
  · intro ok
    unfold MatchTruth.fromCode at ok
    repeat' split at ok
    all_goals first | cases ok; assumption | cases ok
  · intro same
    subst same
    cases truth <;> rfl

theorem new_counts_iff (matched unknown : Nat) (counts : MatchCounts) :
    MatchCounts.new matched unknown = .ok counts ↔ counts = ⟨matched, unknown⟩ ∧ counts.validate = .ok () := by
  rw [MatchCounts.new, bind_ok_iff]
  constructor
  · intro ⟨_, valid, same⟩
    obtain rfl := Except.ok.inj same
    exact ⟨rfl, valid⟩
  · intro ⟨same, valid⟩
    subst same
    exact ⟨(), valid, rfl⟩

theorem new_candidate_iff (rowId : Int) (multiplicity : Nat) (truth : MatchTruth) (oldCounts newCounts : MatchCounts)
    (candidate : CandidateExpectation) :
    CandidateExpectation.new rowId multiplicity truth oldCounts newCounts = .ok candidate ↔
      candidate = ⟨rowId, multiplicity, truth, oldCounts, newCounts⟩ ∧ candidate.validate = .ok () := by
  rw [CandidateExpectation.new, bind_ok_iff]
  constructor
  · intro ⟨_, valid, same⟩
    obtain rfl := Except.ok.inj same
    exact ⟨rfl, valid⟩
  · intro ⟨same, valid⟩
    subst same
    exact ⟨(), valid, rfl⟩

theorem candidate_counts_valid (candidate : CandidateExpectation) (valid : candidate.validate = .ok ()) :
    candidate.oldCounts.validate = .ok () ∧ candidate.newCounts.validate = .ok () := by
  unfold CandidateExpectation.validate at valid
  have valid := past_check (past_check valid)
  obtain ⟨_, old, new⟩ := bind_ok_iff.mp valid
  exact ⟨old, new⟩

theorem own_counts_valid (own : OwnExpectation) (valid : own.validate = .ok ()) : own.counts.validate = .ok () := by
  unfold OwnExpectation.validate at valid
  obtain ⟨_, counted, _⟩ := bind_ok_iff.mp valid
  exact counted

theorem progress_parts {progress : InputProgress} (valid : progress.validate = .ok ()) :
    progress.positions.validate = .ok () ∧ progress.eventWeight ≠ 0 ∧ progress.eventBytes ≠ 0 ∧
      progress.expectedOwn.validateEvent progress.eventWeight = .ok () ∧
      (∀ rowId, progress.candidateAfter = some rowId → 0 < rowId) ∧ progress.oppositeCounts.validate = .ok () := by
  unfold InputProgress.validate at valid
  obtain ⟨_, placed, valid⟩ := bind_ok_iff.mp valid
  obtain ⟨weighed, valid⟩ := refuse_bind_ok.mp valid
  obtain ⟨sized, valid⟩ := refuse_bind_ok.mp valid
  obtain ⟨_, owned, valid⟩ := bind_ok_iff.mp valid
  refine ⟨placed, of_decide_eq_false weighed, of_decide_eq_false sized, owned, ?_⟩
  cases after : progress.candidateAfter with
  | none =>
      rw [after] at valid
      refine ⟨?_, valid⟩
      intro rowId wrong
      cases wrong
  | some cursor =>
      rw [after] at valid
      obtain ⟨_, identified, counted⟩ := bind_ok_iff.mp valid
      have positive := of_decide_eq_false (refuse_ok.mp identified)
      refine ⟨?_, counted⟩
      intro rowId same
      obtain rfl := Option.some.inj same
      omega

theorem expected_own_valid (valid : progress.validate = .ok ()) :
    progress.expectedOwn.validate = .ok () := by
  obtain ⟨_, _, _, owned, _⟩ := progress_parts valid
  unfold OwnExpectation.validateEvent at owned
  obtain ⟨_, checked, _⟩ := bind_ok_iff.mp owned
  exact checked

def DecodedFields.withoutPending (fields : DecodedFields) : DecodedFields :=
  { fields with
    pendingRowId := none
    pendingMultiplicity := none
    pendingTruth := none
    pendingOldMatch := none
    pendingOldUnknown := none
    pendingNewMatch := none
    pendingNewUnknown := none }

def DecodedFields.withPending (fields : DecodedFields) (candidate : CandidateExpectation) : DecodedFields :=
  { fields with
    pendingRowId := some candidate.rowId
    pendingMultiplicity := some candidate.multiplicity
    pendingTruth := some candidate.truth.code
    pendingOldMatch := some candidate.oldCounts.matched
    pendingOldUnknown := some candidate.oldCounts.unknown
    pendingNewMatch := some candidate.newCounts.matched
    pendingNewUnknown := some candidate.newCounts.unknown }

def DecodedFields.plus (fields : DecodedFields) : Option CandidateExpectation → DecodedFields
  | none => fields
  | some candidate => fields.withPending candidate

theorem decode_progress_iff (positions : InputPositions) (side : InputSide) (progress : InputProgress) :
    fields.progress positions side = .ok progress ↔
      progress.validate = .ok () ∧ progress.positions = positions ∧ progress.side = side ∧
        fields.withoutPending = .ofProgress progress := by
  constructor
  · intro ok
    unfold DecodedFields.progress at ok
    split at ok
    · rename_i weight bytes multiplicity ownMatch ownUnknown matched unknown frontier
      obtain ⟨ownCounts, counted, ok⟩ := bind_ok_iff.mp ok
      obtain ⟨_, _, ok⟩ := bind_ok_iff.mp ok
      obtain ⟨accumulated, summed, ok⟩ := bind_ok_iff.mp ok
      obtain ⟨rfl, _⟩ := (new_counts_iff _ _ _).mp counted
      obtain ⟨rfl, _⟩ := (new_counts_iff _ _ _).mp summed
      unfold InputProgress.restore at ok
      obtain ⟨_, valid, ok⟩ := bind_ok_iff.mp ok
      obtain rfl := Except.ok.inj ok
      refine ⟨valid, rfl, rfl, ?_⟩
      rw [DecodedFields.withoutPending, weight, bytes, multiplicity, ownMatch, ownUnknown, matched, unknown, frontier]
      rfl
    · cases ok
  · intro ⟨valid, placed, sided, same⟩
    have own := expected_own_valid progress valid
    obtain ⟨_, _, _, _, _, counted⟩ := progress_parts valid
    obtain ⟨weight, bytes, ownRowId, multiplicity, ownMatch, ownUnknown, after, matched, unknown, pendingRowId,
      pendingMultiplicity, pendingTruth, pendingOldMatch, pendingOldUnknown, pendingNewMatch, pendingNewUnknown,
      frontier⟩ := fields
    unfold DecodedFields.withoutPending DecodedFields.ofProgress at same
    obtain ⟨rfl, rfl, rfl, rfl, rfl, rfl, rfl, rfl, rfl, _, _, _, _, _, _, _, rfl⟩ := DecodedFields.mk.inj same
    subst placed sided
    unfold DecodedFields.progress
    refine bind_ok_iff.mpr ⟨progress.expectedOwn.counts, (new_counts_iff _ _ _).mpr ⟨rfl, own_counts_valid _ own⟩, ?_⟩
    refine bind_ok_iff.mpr ⟨(), own, ?_⟩
    refine bind_ok_iff.mpr ⟨progress.oppositeCounts, (new_counts_iff _ _ _).mpr ⟨rfl, counted⟩, ?_⟩
    exact bind_ok_iff.mpr ⟨(), valid, rfl⟩

theorem decode_pending_iff :
    fields.pending = .ok pending ↔
      fields = fields.withoutPending.plus pending ∧ ∀ candidate, pending = some candidate → candidate.validate = .ok () := by
  constructor
  · intro ok
    unfold DecodedFields.pending at ok
    split at ok
    · rename_i rowId multiplicity truth oldMatch oldUnknown newMatch newUnknown
      obtain ⟨_, decoded, ok⟩ := bind_ok_iff.mp ok
      obtain ⟨_, old, ok⟩ := bind_ok_iff.mp ok
      obtain ⟨_, new, ok⟩ := bind_ok_iff.mp ok
      obtain ⟨candidate, made, ok⟩ := bind_ok_iff.mp ok
      obtain rfl := Except.ok.inj ok
      obtain ⟨rfl, _⟩ := (new_counts_iff _ _ _).mp old
      obtain ⟨rfl, _⟩ := (new_counts_iff _ _ _).mp new
      obtain ⟨rfl, valid⟩ := (new_candidate_iff _ _ _ _ _ _).mp made
      obtain rfl := (truth_from_code _ _).mp decoded
      constructor
      · rw [DecodedFields.plus, DecodedFields.withPending, ← rowId, ← multiplicity, ← truth, ← oldMatch, ← oldUnknown,
          ← newMatch, ← newUnknown]
        rfl
      · intro candidate same
        obtain rfl := Option.some.inj same
        exact valid
    · obtain ⟨absent, ok⟩ := refuse_bind_ok.mp ok
      obtain rfl := Except.ok.inj ok
      unfold DecodedFields.pendingFields at absent
      simp only [List.any_cons, List.any_nil, id, Bool.or_eq_false_iff, Option.isSome_eq_false_iff,
        Option.isNone_iff_eq_none] at absent
      obtain ⟨rowId, multiplicity, truth, oldMatch, oldUnknown, newMatch, newUnknown, _⟩ := absent
      refine ⟨?_, fun _ wrong => (by cases wrong)⟩
      change fields = ⟨fields.eventWeight, fields.eventBytes, fields.ownRowId, fields.ownMultiplicity, fields.ownMatch,
        fields.ownUnknown, fields.candidateAfter, fields.accumulatedMatch, fields.accumulatedUnknown, none, none, none, none,
        none, none, none, fields.frontier⟩
      rw [DecodedFields.mk.injEq]
      exact ⟨rfl, rfl, rfl, rfl, rfl, rfl, rfl, rfl, rfl, rowId, multiplicity, truth, oldMatch, oldUnknown, newMatch,
        newUnknown, rfl⟩
  · intro ⟨same, valid⟩
    cases pending with
    | none =>
        rw [same]
        rfl
    | some candidate =>
        obtain ⟨old, new⟩ := candidate_counts_valid candidate (valid candidate rfl)
        rw [same]
        change (do
          let truth ← MatchTruth.fromCode candidate.truth.code
          let oldCounts ← MatchCounts.new candidate.oldCounts.matched candidate.oldCounts.unknown
          let newCounts ← MatchCounts.new candidate.newCounts.matched candidate.newCounts.unknown
          let made ← CandidateExpectation.new candidate.rowId candidate.multiplicity truth oldCounts newCounts
          return some made) = _
        rw [(truth_from_code _ _).mpr rfl, ok_bind, (new_counts_iff _ _ _).mpr ⟨rfl, old⟩, ok_bind,
          (new_counts_iff _ _ _).mpr ⟨rfl, new⟩, ok_bind, (new_candidate_iff _ _ _ _ _ _).mpr ⟨rfl, valid candidate rfl⟩, ok_bind]
        rfl

theorem pending_parts {progress : InputProgress} {candidate : CandidateExpectation}
    (valid : validatePendingCandidate progress candidate = .ok ()) :
    progress.validate = .ok () ∧ candidate.validate = .ok () := by
  unfold validatePendingCandidate at valid
  obtain ⟨_, progressed, valid⟩ := bind_ok_iff.mp valid
  obtain ⟨_, known, _⟩ := bind_ok_iff.mp valid
  exact ⟨progressed, known⟩

theorem empty_fields :
    (fields.dataFields.any id || fields.ownRowId.isSome || fields.candidateAfter.isSome || fields.pendingFields.any id) = false ↔
      fields = { frontier := fields.frontier } := by
  obtain ⟨weight, bytes, ownRowId, multiplicity, ownMatch, ownUnknown, after, matched, unknown, pendingRowId,
    pendingMultiplicity, pendingTruth, pendingOldMatch, pendingOldUnknown, pendingNewMatch, pendingNewUnknown,
    frontier⟩ := fields
  simp only [DecodedFields.dataFields, DecodedFields.pendingFields, List.any_cons, List.any_nil, id, Bool.or_eq_false_iff,
    Option.isSome_eq_false_iff, Option.isNone_iff_eq_none, DecodedFields.mk.injEq]
  constructor
  · intro absent
    simp only [absent, and_self]
  · intro absent
    simp only [absent, and_self]

theorem restore_input_inv (ok : JoinContinuation.restoreInput phase progress pending = .ok continuation) :
    continuation.Valid ∧ continuation.phase = phase ∧ continuation.side = progress.side ∧
      continuation.positions = progress.positions ∧
      DecodedFields.ofContinuation continuation = (DecodedFields.ofProgress progress).plus pending := by
  unfold JoinContinuation.restoreInput at ok
  obtain ⟨_, valid, ok⟩ := bind_ok_iff.mp ok
  cases phase with
  | preflight => cases ok
  | frontier => cases ok
  | probe | finalize =>
      cases pending with
      | some _ => cases ok
      | none =>
          obtain rfl := Except.ok.inj ok
          exact ⟨valid, rfl, rfl, rfl, rfl⟩
  | pendingTransition =>
      cases pending with
      | none => cases ok
      | some candidate =>
          obtain ⟨_, _, ok⟩ := bind_ok_iff.mp ok
          obtain ⟨_, pendingValid, ok⟩ := bind_ok_iff.mp ok
          obtain rfl := Except.ok.inj ok
          exact ⟨pendingValid, rfl, rfl, rfl, rfl⟩

-- Decoding's three branches accept the fields of one continuation, and nothing else.
theorem restore_inv (side : InputSide) (positions : InputPositions) (fields : DecodedFields)
    (continuation : JoinContinuation) (ok : restoreContinuation phase side positions fields = .ok continuation) :
    continuation.Valid ∧ continuation.phase = phase ∧ continuation.side = side ∧
      continuation.positions = positions ∧ fields = .ofContinuation continuation := by
  have data (ok : (do
        let progress ← fields.progress positions side
        let pending ← fields.pending
        JoinContinuation.restoreInput phase progress pending) = Except.ok continuation) :
      continuation.Valid ∧ continuation.phase = phase ∧ continuation.side = side ∧
        continuation.positions = positions ∧ fields = .ofContinuation continuation := by
    obtain ⟨progress, progressed, ok⟩ := bind_ok_iff.mp ok
    obtain ⟨pending, awaited, ok⟩ := bind_ok_iff.mp ok
    obtain ⟨_, placed, sided, scalars⟩ := (decode_progress_iff _ _ _ _).mp progressed
    obtain ⟨shape, _⟩ := (decode_pending_iff _ _).mp awaited
    obtain ⟨valid, named, sidedLater, placedLater, same⟩ := restore_input_inv _ _ _ _ ok
    refine ⟨valid, named, sidedLater.trans sided, placedLater.trans placed, ?_⟩
    rw [same, ← scalars]
    exact shape
  cases phase with
  | preflight =>
      obtain ⟨absent, ok⟩ := refuse_bind_ok.mp ok
      obtain ⟨bare, ended⟩ := Bool.or_eq_false_iff.mp absent
      have shape := (empty_fields fields).mp bare
      rw [Option.isSome_eq_false_iff, Option.isNone_iff_eq_none] at ended
      rw [ended] at shape
      unfold JoinContinuation.startPreflight at ok
      obtain ⟨_, valid, ok⟩ := bind_ok_iff.mp ok
      obtain rfl := Except.ok.inj ok
      exact ⟨valid, rfl, rfl, rfl, shape⟩
  | frontier =>
      obtain ⟨absent, ok⟩ := refuse_bind_ok.mp ok
      have shape := (empty_fields fields).mp absent
      cases ended : fields.frontier with
      | none =>
          rw [ended] at ok
          cases ok
      | some frontier =>
          rw [ended] at ok shape
          unfold JoinContinuation.startFrontier at ok
          obtain ⟨_, valid, ok⟩ := bind_ok_iff.mp ok
          obtain rfl := Except.ok.inj ok
          exact ⟨valid, rfl, rfl, rfl, shape⟩
  | probe => exact data ok
  | pendingTransition => exact data ok
  | finalize => exact data ok

theorem restore_progress (valid : progress.validate = .ok ())
    (known : ∀ candidate, pending = some candidate → candidate.validate = .ok ())
    (data : phase = .probe ∨ phase = .pendingTransition ∨ phase = .finalize) :
    restoreContinuation phase progress.side progress.positions ((DecodedFields.ofProgress progress).plus pending) =
      JoinContinuation.restoreInput phase progress pending := by
  have bare : ((DecodedFields.ofProgress progress).plus pending).withoutPending = DecodedFields.ofProgress progress := by
    cases pending <;> rfl
  have progressed : ((DecodedFields.ofProgress progress).plus pending).progress progress.positions progress.side =
      .ok progress := (decode_progress_iff _ _ _ _).mpr ⟨valid, rfl, rfl, bare⟩
  have awaited : ((DecodedFields.ofProgress progress).plus pending).pending = .ok pending :=
    (decode_pending_iff _ _).mpr ⟨by rw [bare], known⟩
  rcases data with rfl | rfl | rfl
  all_goals rw [restoreContinuation, progressed, ok_bind, awaited, ok_bind]

end

theorem restore_valid (continuation : JoinContinuation) (valid : continuation.Valid) :
    restoreContinuation continuation.phase continuation.side continuation.positions (.ofContinuation continuation) =
      .ok continuation := by
  cases continuation with
  | preflight positions side | frontier continuation =>
      refine refuse_bind_ok.mpr ⟨rfl, ?_⟩
      exact bind_ok_iff.mpr ⟨(), valid, rfl⟩
  | probe progress =>
      refine (restore_progress .probe progress none valid (fun _ wrong => (by cases wrong)) (.inl rfl)).trans ?_
      exact bind_ok_iff.mpr ⟨(), valid, rfl⟩
  | finalize progress =>
      refine (restore_progress .finalize progress none valid (fun _ wrong => (by cases wrong)) (.inr (.inr rfl))).trans ?_
      exact bind_ok_iff.mpr ⟨(), valid, rfl⟩
  | pendingTransition progress candidate =>
      obtain ⟨progressed, known⟩ := pending_parts valid
      refine (restore_progress .pendingTransition progress (some candidate) progressed ?_ (.inr (.inl rfl))).trans ?_
      · intro other same
        obtain rfl := Option.some.inj same
        exact known
      · refine bind_ok_iff.mpr ⟨(), progressed, ?_⟩
        refine bind_ok_iff.mpr ⟨(), known, ?_⟩
        exact bind_ok_iff.mpr ⟨(), valid, rfl⟩

theorem valid_positions (continuation : JoinContinuation) (valid : continuation.Valid) :
    continuation.positions.validate = .ok () := by
  cases continuation with
  | preflight positions side => exact valid
  | frontier continuation =>
      obtain ⟨_, placed, _⟩ := bind_ok_iff.mp valid
      exact placed
  | probe progress => exact (progress_parts valid).1
  | finalize progress => exact (progress_parts valid).1
  | pendingTransition progress candidate => exact (progress_parts (pending_parts valid).1).1

-- Reading the row back: it decodes to a continuation exactly when it holds the
-- cells of that continuation and the planner would resume it.
theorem load_iff (row : ContinuationRow) (continuation : JoinContinuation) :
    loadContinuation row = .ok continuation ↔ continuation.Valid ∧ row.cell = cellsOf continuation := by
  constructor
  · intro ok
    unfold loadContinuation decodeContinuation at ok
    obtain ⟨code, readPhase, ok⟩ := bind_ok_iff.mp ok
    obtain ⟨active, started, ok⟩ := bind_ok_iff.mp ok
    obtain ⟨phase, phased, ok⟩ := bind_ok_iff.mp ok
    obtain ⟨sideCode, readSide, ok⟩ := bind_ok_iff.mp ok
    obtain ⟨side, sided, ok⟩ := bind_ok_iff.mp ok
    obtain ⟨positions, readPositions, ok⟩ := bind_ok_iff.mp ok
    obtain ⟨fields, readFields, ok⟩ := bind_ok_iff.mp ok
    have restored := restore_inv _ _ _ _ _ ok
    obtain ⟨_, started⟩ := refuse_bind_ok.mp started
    obtain rfl := Except.ok.inj started
    obtain rfl := (phase_from_code _ _).mp phased
    obtain rfl := (side_from_code _ _).mp sided
    obtain ⟨valid, rfl, rfl, rfl, rfl⟩ := restored
    have head := (read_required_smallint rfl _ _).mp readPhase
    have input := (read_required_smallint rfl _ _).mp readSide
    obtain ⟨placed, _⟩ := (decode_positions_iff row _).mp readPositions
    have holds := (decode_fields_iff row _).mp readFields
    refine ⟨valid, funext fun column => ?_⟩
    cases column with
    | phase => exact head
    | inputSide => exact input
    | leftStreamId => exact placed.leftStreamId
    | leftChunkSeq => exact placed.leftChunkSeq
    | leftRowOrdinal => exact placed.leftRowOrdinal
    | rightStreamId => exact placed.rightStreamId
    | rightChunkSeq => exact placed.rightChunkSeq
    | rightRowOrdinal => exact placed.rightRowOrdinal
    | eventWeight => exact holds.eventWeight
    | eventBytes => exact holds.eventBytes
    | ownRowId => exact holds.ownRowId
    | ownMultiplicity => exact holds.ownMultiplicity
    | ownMatchCount => exact holds.ownMatch
    | ownUnknownCount => exact holds.ownUnknown
    | candidateAfter => exact holds.candidateAfter
    | accumulatedMatchCount => exact holds.accumulatedMatch
    | accumulatedUnknownCount => exact holds.accumulatedUnknown
    | pendingRowId => exact holds.pendingRowId
    | pendingMultiplicity => exact holds.pendingMultiplicity
    | pendingTruth => exact holds.pendingTruth
    | pendingOldMatch => exact holds.pendingOldMatch
    | pendingOldUnknown => exact holds.pendingOldUnknown
    | pendingNewMatch => exact holds.pendingNewMatch
    | pendingNewUnknown => exact holds.pendingNewUnknown
    | frontierLsn => exact holds.frontier
  · intro ⟨valid, same⟩
    have held (column : ContinuationColumn) : row.cell column = cellsOf continuation column := congrFun same column
    have placed : Placed row continuation.positions := ⟨held _, held _, held _, held _, held _, held _⟩
    have holds : Holds row (.ofContinuation continuation) :=
      ⟨held _, held _, held _, held _, held _, held _, held _, held _, held _, held _, held _, held _, held _, held _, held _,
        held _, held _⟩
    rw [loadContinuation, decodeContinuation, (read_required_smallint rfl _ _).mpr (held .phase), ok_bind,
      active_phase, ok_bind, (phase_from_code _ _).mpr rfl, ok_bind,
      (read_required_smallint rfl _ _).mpr (held .inputSide), ok_bind, (side_from_code _ _).mpr rfl, ok_bind,
      (decode_positions_iff row _).mpr ⟨placed, valid_positions continuation valid⟩, ok_bind,
      (decode_fields_iff row _).mpr holds, ok_bind]
    exact restore_valid continuation valid

end Shiba.Join
