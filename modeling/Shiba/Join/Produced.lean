import Shiba.Join.ContinuationRoundTrip
import Shiba.Join.Reached

set_option autoImplicit false

namespace Shiba.Join

open Shiba.Execution

-- The widths of the source's integer fields.
structure InputPosition.Typed (position : InputPosition) : Prop where
  streamId : isBigint position.streamId = true
  chunkSeq : isBigint position.chunkSeq = true
  rowOrdinal : isBigint position.rowOrdinal = true

structure InputPositions.Typed (positions : InputPositions) : Prop where
  left : positions.left.Typed
  right : positions.right.Typed

-- A row's measured bytes come from PostgreSQL as a bigint.
structure InputEventFacts.Typed (event : InputEventFacts) : Prop where
  positions : event.positions.Typed
  weight : isBigint event.weight = true
  rowBytes : event.rowBytes ≤ bigintMax

def OwnExpectation.Typed (own : OwnExpectation) : Prop := ∀ rowId, own.rowId = some rowId → isBigint rowId = true

-- What planner transitions make of one another.
inductive Produced (mode : JoinMode) : JoinContinuation → Prop where
  | startPreflight (positions : InputPositions) (side : InputSide) (continuation : JoinContinuation)
      (typed : positions.Typed) (started : JoinContinuation.startPreflight positions side = .ok continuation) :
      Produced mode continuation
  | startInput (event : InputEventFacts) (own : OwnExpectation) (continuation : JoinContinuation) (typed : event.Typed)
      (owned : own.Typed) (started : JoinContinuation.startInput event own = .ok continuation) : Produced mode continuation
  | startFrontier (facts : FrontierInputFacts) (continuation : JoinContinuation) (typed : facts.positions.Typed)
      (fits : facts.frontier ≤ u64Max) (started : JoinContinuation.startFrontier facts = .ok continuation) :
      Produced mode continuation
  | planActions (before : JoinContinuation) (event : InputEventFacts) (page : ProbePage) (budget : WorkBudget)
      (plan : ActionPlan) (produced : Produced mode before)
      (typed : ∀ candidate ∈ page.candidates, isBigint candidate.rowId = true)
      (planned : planActions mode before event page budget = .ok plan) : Produced mode plan.next

structure InputProgress.Sound (progress : InputProgress) : Prop where
  underway : ∃ event, Underway event progress
  positions : progress.positions.Typed
  weight : isBigint progress.eventWeight = true
  bytes : progress.eventBytes ≤ bigintMax
  own : progress.expectedOwn.Typed
  cursor : ∀ rowId, progress.candidateAfter = some rowId → isBigint rowId = true
  fresh : progress.candidateAfter = none → progress.oppositeCounts = {}

def JoinContinuation.Sound : JoinContinuation → Prop
  | .preflight positions side => (JoinContinuation.preflight positions side).Valid ∧ positions.Typed
  | .probe progress | .finalize progress => progress.Sound
  | .pendingTransition progress candidate =>
      progress.Sound ∧ validatePendingCandidate progress candidate = .ok () ∧ isBigint candidate.rowId = true
  | .frontier continuation =>
      (JoinContinuation.frontier continuation).Valid ∧ continuation.positions.Typed ∧ continuation.frontier ≤ u64Max

theorem complete_sound {progress after : InputProgress} {expected : CandidateExpectation} (sound : progress.Sound)
    (checked : expected.validate = .ok ()) (typed : isBigint expected.rowId = true)
    (ok : progress.completeCandidate expected = .ok after) : after.Sound := by
  obtain ⟨placed, sided, weighed, sized, owned, cursor, _, fits⟩ := complete_candidate_frame ok
  obtain ⟨event, underway⟩ := sound.underway
  have identified : 0 < expected.rowId := by
    unfold CandidateExpectation.validate at checked
    obtain ⟨_, stable, _⟩ := bind_ok_iff.mp checked
    have := of_decide_eq_false (refuse_ok.mp stable)
    omega
  refine ⟨⟨event, underway.valid, placed.trans underway.placed, sided.trans underway.sided, weighed.trans underway.weighed,
    sized.trans underway.sized, by rw [owned]; exact underway.owned, ?_, fits underway.counted⟩, by rw [placed]; exact sound.positions,
    by rw [weighed]; exact sound.weight, by rw [sized]; exact sound.bytes, by rw [owned]; exact sound.own, ?_, ?_⟩
  · intro rowId same
    rw [cursor] at same
    obtain rfl := Option.some.inj same
    exact identified
  · intro rowId same
    rw [cursor] at same
    obtain rfl := Option.some.inj same
    exact typed
  · intro wrong
    rw [cursor] at wrong
    cases wrong

section

variable {α : Type} (mode : JoinMode) (column : ContinuationColumn)

-- By induction on the page, as the loop goes over it.
theorem process_sound (budget : WorkBudget) (page : List CandidateProbe) (pending : Option CandidateExpectation)
    (state after : PageProgress) (typed : ∀ candidate ∈ page, isBigint candidate.rowId = true) (sound : state.progress.Sound)
    (idle : state.nextPending = none) (ok : processCandidates mode budget pending page state = .ok after) :
    after.progress.Sound ∧ ∀ candidate, after.nextPending = some candidate → isBigint candidate.rowId = true := by
  induction page generalizing pending state with
  | nil =>
      obtain rfl := Except.ok.inj ok
      refine ⟨sound, ?_⟩
      intro candidate wrong
      rw [idle] at wrong
      cases wrong
  | cons candidate rest ih =>
      rw [processCandidates] at ok
      obtain ⟨classified, read, ok⟩ := bind_ok_iff.mp ok
      obtain ⟨first, _, ok⟩ := bind_ok_iff.mp ok
      obtain ⟨⟨selected, rows, bytes⟩, _, ok⟩ := bind_ok_iff.mp ok
      have reads := classify_reads _ read
      have named : classified.expected.rowId = candidate.rowId := by rw [reads.expected]
      have known : isBigint classified.expected.rowId = true := by
        rw [named]
        exact typed candidate List.mem_cons_self
      simp only at ok
      split at ok
      · unfold PageProgress.stop at ok
        split at ok
        · obtain ⟨_, ok⟩ := refuse_bind_ok.mp ok
          obtain rfl := Except.ok.inj ok
          refine ⟨sound, ?_⟩
          intro other same
          obtain rfl := Option.some.inj same
          exact known
        · obtain rfl := Except.ok.inj ok
          refine ⟨sound, ?_⟩
          intro other wrong
          change state.nextPending = some other at wrong
          rw [idle] at wrong
          cases wrong
      · obtain ⟨middle, completed, ok⟩ := bind_ok_iff.mp ok
        unfold PageProgress.complete at completed
        obtain ⟨progress, moved, result⟩ := bind_ok_iff.mp completed
        obtain rfl := Except.ok.inj result
        have later := complete_sound sound reads.checked known moved
        refine ih none _ (fun other member => typed other (List.mem_cons_of_mem _ member)) ?_ ?_ ok
        · exact later
        · exact idle

theorem plan_sound {mode : JoinMode} {before : JoinContinuation} {event : InputEventFacts} {page : ProbePage}
    {budget : WorkBudget} {plan : ActionPlan} (typed : ∀ candidate ∈ page.candidates, isBigint candidate.rowId = true)
    (sound : before.Sound) (planned : planActions mode before event page budget = .ok plan) : plan.next.Sound := by
  unfold planActions at planned
  obtain ⟨_, _, planned⟩ := bind_ok_iff.mp planned
  obtain ⟨⟨progress, pending⟩, opened, planned⟩ := bind_ok_iff.mp planned
  have planned := past_check (past_check planned)
  obtain ⟨inputBytes, _, planned⟩ := bind_ok_iff.mp planned
  obtain ⟨_, _, planned⟩ := bind_ok_iff.mp planned
  obtain ⟨state, processed, planned⟩ := bind_ok_iff.mp planned
  have planned := past_check (past_check planned)
  obtain ⟨next, continued, planned⟩ := bind_ok_iff.mp planned
  obtain ⟨_, _, planned⟩ := bind_ok_iff.mp planned
  obtain rfl := Except.ok.inj planned
  have begun : progress.Sound := by
    cases before with
    | preflight _ _ => cases opened
    | finalize _ => cases opened
    | frontier _ => cases opened
    | probe other =>
        obtain rfl := (Prod.mk.inj (Except.ok.inj opened)).1
        exact sound
    | pendingTransition other _ =>
        obtain rfl := (Prod.mk.inj (Except.ok.inj opened)).1
        exact sound.1
  obtain ⟨reached, known⟩ := process_sound mode budget page.candidates pending { progress := progress } state typed begun rfl
    processed
  change next.Sound
  unfold PageProgress.nextContinuation at continued
  split at continued
  · rename_i candidate awaited
    obtain ⟨_, valid, continued⟩ := bind_ok_iff.mp continued
    obtain rfl := Except.ok.inj continued
    exact ⟨reached, valid, known candidate awaited⟩
  · split at continued
    · obtain rfl := Except.ok.inj continued
      exact reached
    · obtain rfl := Except.ok.inj continued
      exact reached

theorem produced_sound (continuation : JoinContinuation) (produced : Produced mode continuation) :
    continuation.Sound := by
  induction produced with
  | startPreflight positions side continuation typed started =>
      unfold JoinContinuation.startPreflight at started
      obtain ⟨_, valid, started⟩ := bind_ok_iff.mp started
      obtain rfl := Except.ok.inj started
      exact ⟨valid, typed⟩
  | startInput event own continuation typed owned started =>
      unfold JoinContinuation.startInput at started
      obtain ⟨_, valid, started⟩ := bind_ok_iff.mp started
      obtain ⟨_, expected, started⟩ := bind_ok_iff.mp started
      obtain rfl := Except.ok.inj started
      have underway : Underway event (.fromEvent event own) :=
        ⟨valid, rfl, rfl, rfl, rfl, expected, fun _ wrong => (by cases wrong), ⟨Nat.zero_le _, Nat.zero_le _⟩⟩
      exact ⟨⟨event, underway⟩, typed.positions, typed.weight, typed.rowBytes, owned, fun _ wrong => (by cases wrong), fun _ => rfl⟩
  | startFrontier facts continuation typed fits started =>
      unfold JoinContinuation.startFrontier at started
      obtain ⟨_, valid, started⟩ := bind_ok_iff.mp started
      obtain rfl := Except.ok.inj started
      exact ⟨valid, typed, fits⟩
  | planActions before event page budget plan produced typed planned ih =>
      exact plan_sound typed ih planned

theorem sound_valid (continuation : JoinContinuation) (sound : continuation.Sound) : continuation.Valid := by
  cases continuation with
  | preflight _ _ => exact sound.1
  | frontier _ => exact sound.1
  | probe progress | finalize progress =>
      obtain ⟨event, underway⟩ := InputProgress.Sound.underway sound
      exact underway_valid event progress underway
  | pendingTransition progress candidate => exact sound.2.1

theorem admits_optional {column : ContinuationColumn} {value : Option Int} (wide : column.type = .bigint)
    (nullable : column.nullable = true) (fits : ∀ rowId, value = some rowId → isBigint rowId = true) :
    column.admits (.ofBigint value) = true := by
  cases value with
  | none =>
      cases column <;> exact nullable
  | some rowId =>
      simp only [ContinuationColumn.admits, wide, Cell.ofBigint, Option.map_some, Option.getD_some]
      exact fits rowId rfl

theorem own_fits (own : OwnExpectation) (valid : own.validate = .ok ()) :
    own.multiplicity ≤ bigintMax ∧ own.counts.matched ≤ bigintMax ∧ own.counts.unknown ≤ bigintMax := by
  unfold OwnExpectation.validate at valid
  obtain ⟨_, counted, valid⟩ := bind_ok_iff.mp valid
  obtain ⟨matched, unknown⟩ := counts_inv _ counted
  refine ⟨?_, matched, unknown⟩
  cases placed : own.rowId with
  | none =>
      rw [placed] at valid
      have same := refuse_ok.mp valid
      rw [Bool.not_eq_false', Bool.and_eq_true_iff] at same
      rw [of_decide_eq_true same.1]
      exact Nat.zero_le _
  | some rowId =>
      rw [placed] at valid
      obtain ⟨_, _, valid⟩ := bind_ok_iff.mp valid
      obtain ⟨_, bounded⟩ := refuse_bind_ok.mp valid
      exact Nat.not_lt.mp (of_decide_eq_false (refuse_ok.mp bounded))

theorem expectation_fits (candidate : CandidateExpectation) (valid : candidate.validate = .ok ()) :
    candidate.multiplicity ≤ bigintMax ∧ candidate.oldCounts.Fit ∧ candidate.newCounts.Fit := by
  obtain ⟨old, new⟩ := candidate_counts_valid candidate valid
  unfold CandidateExpectation.validate at valid
  obtain ⟨_, _, valid⟩ := bind_ok_iff.mp valid
  obtain ⟨_, counted, _⟩ := bind_ok_iff.mp valid
  obtain ⟨_, bounded⟩ := refuse_bind_ok.mp counted
  exact ⟨Nat.not_lt.mp (of_decide_eq_false (refuse_ok.mp bounded)), counts_inv _ old, counts_inv _ new⟩

-- Every field is as wide as its column.
structure DecodedFields.Fit (fields : DecodedFields) : Prop where
  identifiers : ∀ value ∈ [fields.eventWeight, fields.ownRowId, fields.candidateAfter, fields.pendingRowId],
    ∀ identifier, value = some identifier → isBigint identifier = true
  counts : ∀ value ∈ [fields.eventBytes, fields.ownMultiplicity, fields.ownMatch, fields.ownUnknown, fields.accumulatedMatch,
    fields.accumulatedUnknown, fields.pendingMultiplicity, fields.pendingOldMatch, fields.pendingOldUnknown,
    fields.pendingNewMatch, fields.pendingNewUnknown], ∀ count, value = some count → count ≤ bigintMax
  truth : ∀ code, fields.pendingTruth = some code → isSmallint code = true
  frontier : ∀ lsn, fields.frontier = some lsn → lsn ≤ u64Max

theorem admits_count (count : Option Nat) (wide : column.type = .bigint) (nullable : column.nullable = true)
    (fits : ∀ value, count = some value → value ≤ bigintMax) :
    column.admits (.ofCount count) = true := by
  refine admits_optional wide nullable ?_
  intro identifier same
  obtain ⟨value, counted, rfl⟩ := Option.map_eq_some_iff.mp same
  have upper := fits value counted
  exact Bool.and_eq_true_iff.mpr
    ⟨decide_eq_true (by change _ ≤ (value : Int); omega), decide_eq_true (Int.ofNat_le.mpr upper)⟩

theorem cells_admitted (phase : JoinPhase) (side : InputSide) (positions : InputPositions) (fields : DecodedFields)
    (typed : positions.Typed) (fit : fields.Fit) (column : ContinuationColumn) :
    column.admits (headCells phase side positions fields column) = true := by
  have identifiers (column : ContinuationColumn) (value : Option Int) (wide : column.type = .bigint)
      (nullable : column.nullable = true)
      (listed : value ∈ [fields.eventWeight, fields.ownRowId, fields.candidateAfter, fields.pendingRowId]) :
      column.admits (.ofBigint value) = true := admits_optional wide nullable (fit.identifiers value listed)
  have counts (column : ContinuationColumn) (wide : column.type = .bigint) (nullable : column.nullable = true)
      (value : Option Nat) (fits : ∀ count, value = some count → count ≤ bigintMax) :
      column.admits (.ofCount value) = true := admits_count column value wide nullable fits
  have listed := fit.counts
  simp only [List.forall_mem_cons] at listed
  obtain ⟨bytes, own, ownMatch, ownUnknown, matched, unknown, pending, oldMatch, oldUnknown, newMatch, newUnknown, _⟩ := listed
  cases column with
  | phase => cases phase <;> rfl
  | inputSide => cases side <;> rfl
  | leftStreamId => exact typed.left.streamId
  | leftChunkSeq => exact typed.left.chunkSeq
  | leftRowOrdinal => exact typed.left.rowOrdinal
  | rightStreamId => exact typed.right.streamId
  | rightChunkSeq => exact typed.right.chunkSeq
  | rightRowOrdinal => exact typed.right.rowOrdinal
  | eventWeight => exact identifiers _ _ rfl rfl (by simp)
  | ownRowId => exact identifiers _ _ rfl rfl (by simp)
  | candidateAfter => exact identifiers _ _ rfl rfl (by simp)
  | pendingRowId => exact identifiers _ _ rfl rfl (by simp)
  | eventBytes => exact counts _ rfl rfl _ bytes
  | ownMultiplicity => exact counts _ rfl rfl _ own
  | ownMatchCount => exact counts _ rfl rfl _ ownMatch
  | ownUnknownCount => exact counts _ rfl rfl _ ownUnknown
  | accumulatedMatchCount => exact counts _ rfl rfl _ matched
  | accumulatedUnknownCount => exact counts _ rfl rfl _ unknown
  | pendingMultiplicity => exact counts _ rfl rfl _ pending
  | pendingOldMatch => exact counts _ rfl rfl _ oldMatch
  | pendingOldUnknown => exact counts _ rfl rfl _ oldUnknown
  | pendingNewMatch => exact counts _ rfl rfl _ newMatch
  | pendingNewUnknown => exact counts _ rfl rfl _ newUnknown
  | pendingTruth =>
      change ContinuationColumn.pendingTruth.admits (.ofSmallint fields.pendingTruth) = true
      cases held : fields.pendingTruth with
      | none => rfl
      | some code => exact fit.truth code held
  | frontierLsn =>
      change ContinuationColumn.frontierLsn.admits (.ofLsn fields.frontier) = true
      cases held : fields.frontier with
      | none => rfl
      | some lsn => exact decide_eq_true (fit.frontier lsn held)

theorem of_some (value : α) (holds : α → Prop) (known : holds value) :
    ∀ other, some value = some other → holds other := by
  intro other same
  obtain rfl := Option.some.inj same
  exact known

theorem of_none (holds : α → Prop) : ∀ other, none = some other → holds other := by
  intro other wrong
  cases wrong

theorem progress_fits (progress : InputProgress) (sound : progress.Sound) (fields : DecodedFields)
    (candidate : Option CandidateExpectation) (same : fields = (DecodedFields.ofProgress progress).plus candidate)
    (known : ∀ expected, candidate = some expected → expected.validate = .ok () ∧ isBigint expected.rowId = true) :
    fields.Fit := by
  obtain ⟨event, underway⟩ := sound.underway
  obtain ⟨matched, unknown⟩ := underway.counted
  obtain ⟨own, ownMatch, ownUnknown⟩ := own_fits _ (expected_own_valid progress (underway_valid event progress underway))
  subst same
  have identified : ∀ identifier, some progress.eventWeight = some identifier → isBigint identifier = true :=
    of_some _ _ sound.weight
  cases candidate with
  | none =>
      constructor
      · simp only [List.forall_mem_cons]
        exact ⟨identified, sound.own, sound.cursor, of_none _, fun _ wrong => (by cases wrong)⟩
      · simp only [List.forall_mem_cons]
        exact ⟨of_some _ _ sound.bytes, of_some _ _ own, of_some _ _ ownMatch, of_some _ _ ownUnknown, of_some _ _ matched,
          of_some _ _ unknown, of_none _, of_none _, of_none _, of_none _, of_none _, fun _ wrong => (by cases wrong)⟩
      · exact of_none _
      · exact of_none _
  | some expected =>
      obtain ⟨valid, typed⟩ := known expected rfl
      obtain ⟨multiplicity, old, new⟩ := expectation_fits expected valid
      constructor
      · simp only [List.forall_mem_cons]
        exact ⟨identified, sound.own, sound.cursor, of_some _ _ typed, fun _ wrong => (by cases wrong)⟩
      · simp only [List.forall_mem_cons]
        exact ⟨of_some _ _ sound.bytes, of_some _ _ own, of_some _ _ ownMatch, of_some _ _ ownUnknown, of_some _ _ matched,
          of_some _ _ unknown, of_some _ _ multiplicity, of_some _ _ old.1, of_some _ _ old.2, of_some _ _ new.1,
          of_some _ _ new.2, fun _ wrong => (by cases wrong)⟩
      · apply of_some
        cases expected.truth <;> rfl
      · exact of_none _

theorem empty_fit {frontier : Option Lsn} (fits : ∀ lsn, frontier = some lsn → lsn ≤ u64Max) :
    DecodedFields.Fit { frontier := frontier } := by
  constructor
  · simp only [List.forall_mem_cons]
    exact ⟨of_none _, of_none _, of_none _, of_none _, fun _ wrong => (by cases wrong)⟩
  · simp only [List.forall_mem_cons]
    exact ⟨of_none _, of_none _, of_none _, of_none _, of_none _, of_none _, of_none _, of_none _, of_none _, of_none _,
      of_none _, fun _ wrong => (by cases wrong)⟩
  · exact of_none _
  · exact fits

theorem sound_admitted {continuation : JoinContinuation} (sound : continuation.Sound) (column : ContinuationColumn) :
    column.admits (cellsOf continuation column) = true := by
  apply cells_admitted
  · cases continuation with
    | preflight positions side => exact sound.2
    | frontier continuation => exact sound.2.1
    | probe progress => exact InputProgress.Sound.positions sound
    | finalize progress => exact InputProgress.Sound.positions sound
    | pendingTransition progress candidate => exact sound.1.positions
  · cases continuation with
    | preflight positions side => exact empty_fit (of_none _)
    | frontier continuation => exact empty_fit (of_some _ _ sound.2.2)
    | probe progress | finalize progress => exact progress_fits progress sound _ none rfl (of_none _)
    | pendingTransition progress candidate =>
        exact progress_fits progress sound.1 _ (some candidate) rfl (of_some _ _ ⟨(pending_parts sound.2.1).2, sound.2.2⟩)

-- Every produced continuation comes back from its row, and every row that
-- decodes is the encoding of what it decodes to, which the planner would resume.
theorem continuation_round_trip (mode : JoinMode) :
    (∀ continuation, Produced mode continuation →
      ∃ row, encodeContinuation continuation = .ok row ∧ loadContinuation row = .ok continuation) ∧
    ∀ row continuation, loadContinuation row = .ok continuation →
      continuation.Valid ∧ encodeContinuation continuation = .ok row := by
  constructor
  · intro continuation produced
    have sound := produced_sound mode continuation produced
    refine ⟨⟨cellsOf continuation, sound_admitted sound⟩, encode_held continuation _ rfl, ?_⟩
    exact (load_iff _ continuation).mpr ⟨sound_valid continuation sound, rfl⟩
  · intro row continuation loaded
    obtain ⟨valid, held⟩ := (load_iff row continuation).mp loaded
    exact ⟨valid, encode_held continuation row held⟩

def arrivingRow : InputEventFacts := ⟨.left, ⟨⟨1, 1, 0⟩, ⟨2, 1, 0⟩⟩, 1, 8⟩

theorem arriving_typed : arrivingRow.Typed := ⟨⟨⟨rfl, rfl, rfl⟩, ⟨rfl, rfl, rfl⟩⟩, rfl, by decide⟩

theorem continuation_round_trip_probe :
    ∃ row, encodeContinuation (.probe (.fromEvent arrivingRow {})) = .ok row ∧
      loadContinuation row = .ok (.probe (.fromEvent arrivingRow {})) :=
  (continuation_round_trip .inner).1 _ (.startInput arrivingRow {} _ arriving_typed (of_none _) (by decide))

def unscannedProgress : InputProgress :=
  { positions := ⟨⟨1, 1, 0⟩, ⟨2, 1, 0⟩⟩, side := .left, eventWeight := 1, eventBytes := 8, expectedOwn := {}
    candidateAfter := none, oppositeCounts := ⟨1, 0⟩ }

theorem unscanned_admitted : column.admits (cellsOf (.probe unscannedProgress) column) = true := by
  cases column <;> decide

end

theorem unscanned_loads :
    loadContinuation ⟨cellsOf (.probe unscannedProgress), unscanned_admitted⟩ = .ok (.probe unscannedProgress) := by
  have valid : unscannedProgress.validate = .ok () := by decide
  exact (load_iff _ _).mpr ⟨valid, rfl⟩

-- A probe that counted a match before it met a candidate decodes, and nothing produces it.
theorem unscanned_decodes : ∃ row continuation, loadContinuation row = .ok continuation ∧
    ∀ mode produced, Produced mode produced → encodeContinuation produced ≠ .ok row := by
  refine ⟨⟨cellsOf (.probe unscannedProgress), unscanned_admitted⟩, .probe unscannedProgress, unscanned_loads, ?_⟩
  intro mode produced made encoded
  have sound := produced_sound mode produced made
  have own := encode_held produced ⟨cellsOf produced, sound_admitted sound⟩ rfl
  have loaded : loadContinuation ⟨cellsOf produced, sound_admitted sound⟩ = .ok produced :=
    (load_iff _ produced).mpr ⟨sound_valid produced sound, rfl⟩
  rw [Except.ok.inj (own.symm.trans encoded)] at loaded
  obtain rfl := Except.ok.inj (loaded.symm.trans unscanned_loads)
  have wrong := InputProgress.Sound.fresh sound rfl
  cases wrong

end Shiba.Join
