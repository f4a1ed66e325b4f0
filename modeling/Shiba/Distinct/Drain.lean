import Shiba.Distinct.Moves

set_option autoImplicit false

namespace Shiba.Distinct

open Budget Weighted Shiba.Stream Shiba.Execution Shiba.Execution.StepContext Shiba.Linear Shiba.Linear.Transform
open Shiba.Sink (InputPosition)

variable {Row Key Out Bytes : Type}

-- The effects that a step takes off the queue.
theorem selected_taken (budget : WorkBudget) {output : OutputState Out} (target : 0 < output.targetRows)
    {queue : List (QueuedEffect Out Bytes)} (queued : queue ≠ []) : ∃ count,
      selectedEffects budget output queue = queue.take count ∧ 0 < (selectedEffects budget output queue).length ∧
      PageFits (selectedEffects budget output queue).length (effectBytes (selectedEffects budget output queue))
        (min budget.maxOutputRows output.targetRows) (min budget.maxOutputBytes output.targetBytes) := by
  have limit : 0 < min budget.maxOutputRows output.targetRows := Nat.lt_min.mpr ⟨budget.outputRowsPositive, target⟩
  have candidates : queue.take (min budget.maxOutputRows output.targetRows) ≠ [] := by
    simp only [ne_eq, List.take_eq_nil_iff, not_or]
    exact ⟨Nat.ne_of_gt limit, queued⟩
  obtain ⟨count, same, some, within⟩ := within_budget_prefix
    (fun taken : List (QueuedEffect Out Bytes) =>
      decide ((taken.map QueuedEffect.rowBytes).sum ≤ min budget.maxOutputBytes output.targetBytes))
    (queue.take (min budget.maxOutputRows output.targetRows))
    (fun index fits => decide_eq_true (take_sum_le (of_decide_eq_true fits)))
  have selected : selectedEffects budget output queue = queue.take (min count (min budget.maxOutputRows output.targetRows)) := by
    unfold selectedEffects
    rw [same, List.take_take]
  have positive := some candidates
  have length : (selectedEffects budget output queue).length =
      min (min count (min budget.maxOutputRows output.targetRows)) queue.length := by
    rw [selected, List.length_take]
  have present := List.length_pos_iff.mpr queued
  refine ⟨_, selected, by omega, by omega, ?_⟩
  by_cases several : 1 < count
  · have whole := of_decide_eq_true (within several)
    rw [List.take_take, ← selected] at whole
    exact .inl whole
  · exact .inr (by omega)

variable [LinearOrder Key] [LinearOrder Bytes] [DecidableEq Row] [DecidableEq Out]

section Drain

variable (spec : DistinctSpec Row Key Out Bytes) (key : ConsumerKey) (tables : DistinctTables Row Key Out Bytes)
  (budget : WorkBudget) (row : StreamConsumer) (ordinal : Nat) (stands : Stands spec key tables row ordinal)
  (chunk : EffectChunk Row) (stored : chunk ∈ tables.input.stream.chunks)
  (started : Started spec tables row.nextChunkSeq ordinal chunk) (queued : tables.state.queue ≠ [])
  (flowing : tables.output.stream.backpressured = false)

-- The effects of a drain, and the state relations it leaves.
def drainOf (tables : DistinctTables Row Key Out Bytes) (budget : WorkBudget) : List (QueuedEffect Out Bytes) :=
  selectedEffects budget (outputState tables.output.stream) tables.state.queue

def drainedState (tables : DistinctTables Row Key Out Bytes) (budget : WorkBudget) : DistinctState Key Out Bytes :=
  { tables.state with queue := tables.state.queue.drop (drainOf tables budget).length }

include stands queued

variable {spec key tables row ordinal chunk}

theorem saved_drain (saved : DistinctContinuation) (isSaved : tables.continuation = some saved) :
    saved = ⟨⟨tables.input.stream.streamId, row.nextChunkSeq, ordinal⟩, .drain⟩ := by
  have continuation := stands.standing.continuation
  have some : (!tables.state.queue.isEmpty) = true := by simpa using queued
  rw [some, isSaved, standingCursor, if_pos rfl] at continuation
  exact Option.some.inj continuation

theorem drain_taken : ∃ count, drainOf tables budget = tables.state.queue.take count ∧
    0 < (drainOf tables budget).length ∧
    PageFits (drainOf tables budget).length (effectBytes (drainOf tables budget))
      (min budget.maxOutputRows tables.output.stream.targetChunkRows)
      (min budget.maxOutputBytes tables.output.stream.targetChunkBytes) :=
  selected_taken budget stands.good.output.target queued

include started

theorem drain_drainable : ∀ effect ∈ drainOf tables budget, Drainable spec chunk.chunkLsn effect := by
  obtain ⟨count, isTaken, _⟩ := drain_taken budget stands queued
  intro effect member
  rw [isTaken] at member
  exact started.drainable effect (List.mem_of_mem_take member)

theorem drain_bytes : 0 < effectBytes (drainOf tables budget) := by
  obtain ⟨count, _, some, _⟩ := drain_taken budget stands queued
  have drainable := drain_drainable budget stands started queued
  cases effects : drainOf tables budget with
  | nil =>
      rw [effects] at some
      exact absurd some (Nat.lt_irrefl 0)
  | cons effect rest =>
      have measured := (drainable effect (by rw [effects]; exact List.mem_cons_self)).measured
      rw [effectBytes, List.map_cons, List.sum_cons, measured]
      omega

include stored

theorem step_drains : step spec (startContext tables key budget row) =
    stepDrain spec (boundStart tables key budget row) (storedAt tables row ordinal .drain) chunk := by
  have continuation := stands.standing.continuation
  have some : (!tables.state.queue.isEmpty) = true := by simpa using queued
  rw [step_at spec key tables budget row ordinal stands chunk stored started.atCursor .drain]
  · rfl
  · intro none
    rw [none, some, standingCursor, if_pos rfl] at continuation
    cases continuation
  · exact fun saved isSaved => ⟨saved_drain stands queued saved isSaved, started.kind, drain_ordinary⟩

-- The drain once its effects are recorded.
theorem drain_queue_ok (numbers : tables.output.stream.nextChunkSeq ≠ bigintMax) :
    drainQueue spec (boundStart tables key budget row) =
      .ok (paged key tables budget row (drainedState tables budget) (drainOf tables budget) chunk.chunkLsn,
        ⟨⟨⟨0, 0, (drainOf tables budget).length, effectBytes (drainOf tables budget)⟩, (drainOf tables budget).length,
          .data tables.output.stream.nextChunkSeq⟩, (drainedState tables budget).queue.length⟩) := by
  obtain ⟨count, isTaken, some, _⟩ := drain_taken budget stands queued
  have drainable := drain_drainable budget stands started queued
  have produced := stands.good.input.produced.stored.subset stored
  have fits := chunk_data_fits stands.standing.follows produced
    started.atCursor stands.good.input stands.good.operator stands.good.causal started.kind numbers
  have bytes := drain_bytes budget stands started queued
  have isSelected : selectedEffects (boundStart tables key budget row).budget (boundStart tables key budget row).output
      (boundStart tables key budget row).tables.state.queue = drainOf tables budget := rfl
  unfold drainQueue
  simp only [isSelected]
  cases first : (drainOf tables budget).head? with
  | none =>
      rw [List.head?_eq_none_iff.mp first] at some
      exact absurd some (Nat.lt_irrefl 0)
  | some effect =>
      have caused := (drainable effect (List.mem_of_mem_head? first)).caused
      have sameLsn : ((drainOf tables budget).all fun other => decide (other.causalLsn = chunk.chunkLsn)) = true := by
        rw [List.all_eq_true]
        exact fun other member => decide_eq_true (drainable other member).caused
      have sameKeys : ((drainOf tables budget).all fun other =>
          decide (other.outputKey = spec.canonicalKey other.outputRow)) = true := by
        rw [List.all_eq_true]
        exact fun other member => decide_eq_true (drainable other member).canonical
      have notEmpty : ¬ ((drainOf tables budget).map QueuedEffect.rowBytes).sum = 0 := Nat.ne_of_gt bytes
      have recorded := record_data_ok { boundStart tables key budget row with
        tables := { tables with state := drainedState tables budget } } ⟨rfl, rfl⟩ (drainOf tables budget).length
        (effectBytes (drainOf tables budget)) chunk.chunkLsn (effectRows (drainOf tables budget)) fits some bytes
      simp only [sameLsn, sameKeys, notEmpty, decide_false, Bool.not_true, Bool.or_self, not_refused,
        ok_bind, caused, paged, Nat.ne_of_gt some]
      exact bind_ok_iff.mpr ⟨_, recorded, rfl⟩

-- A drain with a number for its chunk commits.
theorem drain_step (flowing : tables.output.stream.backpressured = false)
    (numbers : tables.output.stream.nextChunkSeq ≠ bigintMax) : stepDistinct spec tables key budget =
      .ok (turnedTables tables (drainedState tables budget) (drainOf tables budget) chunk.chunkLsn
        (onwardInput key tables row chunk ordinal (drainedState tables budget).queue)
        (onwardCursor tables row chunk ordinal (drainedState tables budget).queue)) := by
  have produced := stands.good.input.produced.stored.subset stored
  obtain ⟨count, _, some, taken⟩ := drain_taken budget stands queued
  have ran := drain_queue_ok budget stands stored started queued numbers
  obtain ⟨context, turning, turned⟩ := onward_ok spec key tables budget row ordinal stands chunk stored started.atCursor
    started.kind (drainedState tables budget) (drainOf tables budget) ordinal started.within
  have onward := onward_cursor tables row chunk ordinal (drainedState tables budget).queue
  have fits := chunk_data_fits stands.standing.follows produced
    started.atCursor stands.good.input stands.good.operator stands.good.causal started.kind numbers
  have bytes : 0 < effectBytes (drainOf tables budget) := drain_bytes budget stands started queued
  have writes : WritesFit tables (drainOf tables budget) chunk.chunkLsn :=
    ⟨⟨stands.good.output.operator, stands.good.output.watched, stands.good.output.numbered, flowing⟩, fits,
      page_resources _ _ _ some bytes (Nat.le_trans taken.counted (Nat.min_le_right _ _))
        (taken.sized.imp (fun small => Nat.le_trans small (Nat.min_le_right _ _)) id)⟩
  have valid : (⟨0, 0, (drainOf tables budget).length, effectBytes (drainOf tables budget)⟩ : WorkUsage).validate budget =
      .ok () :=
    usage_valid _ budget ⟨Nat.zero_le _, .inl (Nat.zero_le _)⟩ ⟨Nat.le_trans taken.counted (Nat.min_le_left _ _),
      taken.sized.imp (fun small => Nat.le_trans small (Nat.min_le_left _ _)) id⟩
  have goes : GoesOn ⟨tables.input.stream.streamId, row.nextChunkSeq, ordinal⟩ false
      (onwardCursor tables row chunk ordinal (drainedState tables budget).queue) := by
    intro after isNext
    obtain ⟨sameInput, ordinary, _⟩ := onward after isNext
    rw [sameInput]
    exact ⟨rfl, rfl, rfl, ordinary⟩
  have drains := machine_drains ⟨tables.input.stream.streamId, row.nextChunkSeq, ordinal⟩ stands.good.streamId stands.first
    ⟨⟨0, 0, (drainOf tables budget).length, effectBytes (drainOf tables budget)⟩, (drainOf tables budget).length,
      .data tables.output.stream.nextChunkSeq⟩ _ budget ⟨rfl, rfl⟩
    (Nat.ne_of_gt stands.good.output.numbered) (Nat.ne_of_gt some) rfl goes valid
  obtain ⟨stepped, settles, committable, committed⟩ := turned_commits key tables budget row
    (drainOf tables budget) chunk.chunkLsn _ context turned (storedAt tables row ordinal .drain)
    (stored_saved tables row ordinal .drain (saved_drain stands queued)) drain_ordinary _
    (fun after isNext => (onward after isNext).2.1) .drain _ (drainOf tables budget).length (by decide) valid rfl
    (fun _ => writes)
  have isData : pagedOutput tables (drainOf tables budget) = .data tables.output.stream.nextChunkSeq :=
    if_neg (Nat.ne_of_gt some)
  rw [isData] at settles
  have executed : step spec (startContext tables key budget row) = .ok (stepped, stepped.stepReceipt .drain
      ⟨0, 0, (drainOf tables budget).length, effectBytes (drainOf tables budget)⟩
      (onwardCursor tables row chunk ordinal (drainedState tables budget).queue).isSome) := by
    rw [step_drains budget stands stored started queued]
    unfold stepDrain
    simp only [ran, ok_bind]
    by_cases left : 0 < (drainedState tables budget).queue.length
    · rw [if_pos left] at turning ⊢
      obtain ⟨rfl, isCursor⟩ := Prod.mk.inj (Except.ok.inj turning)
      have sameBudget := turned.sameBudget
      simp only [pure_bind, sameBudget]
      exact bind_ok_iff.mpr ⟨_, isCursor ▸ drains, isCursor ▸ settles⟩
    · rw [if_neg left] at turning ⊢
      have isOrdinal : (storedAt tables row ordinal .drain).value.input.rowOrdinal = ordinal := rfl
      simp only [isOrdinal, turning, ok_bind, turned.sameBudget]
      exact bind_ok_iff.mpr ⟨_, drains, settles⟩
  rw [kernel_commits spec key tables budget row ordinal stands chunk stored started.atCursor flowing stepped .drain _ _
    executed committable (by decide), committed]

-- A drain that committed had a number for its chunk.
theorem drain_needs_number (flowing : tables.output.stream.backpressured = false)
    (after : DistinctTables Row Key Out Bytes) (ok : stepDistinct spec tables key budget = .ok after) :
    tables.output.stream.nextChunkSeq ≠ bigintMax := by
  have starts := begin_starts tables key budget row stands.found flowing
    (.inr (stored_ahead stands.good.input stored started.atCursor))
  obtain ⟨stepped, receipt, executed, _⟩ := run_kernel_steps [.admitted, .drain, .frontier] false (step spec) tables key
    budget _ starts after ok
  rw [step_drains budget stands stored started queued] at executed
  unfold stepDrain at executed
  obtain ⟨ran, isRun, _⟩ := bind_ok_iff.mp executed
  unfold drainQueue at isRun
  simp only at isRun
  split at isRun
  · cases isRun
  · obtain ⟨_, isRun⟩ := refuse_bind_ok.mp isRun
    obtain ⟨appended, wrote, _⟩ := bind_ok_iff.mp isRun
    exact record_data_numbers { boundStart tables key budget row with
      tables := { tables with state := drainedState tables budget } } ⟨rfl, rfl⟩ _ _ _ _ appended wrote

end Drain

section Frontier

variable (spec : DistinctSpec Row Key Out Bytes) (key : ConsumerKey) (tables : DistinctTables Row Key Out Bytes)
  (budget : WorkBudget) (row : StreamConsumer) (stands : Stands spec key tables row 0)
  (chunk : EffectChunk Row) (stored : chunk ∈ tables.input.stream.chunks) (atCursor : chunk.chunkSeq = row.nextChunkSeq)
  (kind : chunk.chunkKind = .frontier) (flowing : tables.output.stream.backpressured = false)

-- The stage past a frontier.
def forwardedTables (key : ConsumerKey) (tables : DistinctTables Row Key Out Bytes) (row : StreamConsumer)
    (chunk : EffectChunk Row) : DistinctTables Row Key Out Bytes :=
  { tables with
    input := movedInput tables.input key row (row.nextChunkSeq + 1) chunk.chunkLsn {}
    output := appendedHistory tables.output .frontier 0 0 chunk.chunkLsn []
    revision := tables.revision + 1
    hasContinuation := false
    continuation := none }

def forwarded (key : ConsumerKey) (tables : DistinctTables Row Key Out Bytes) (budget : WorkBudget) (row : StreamConsumer)
    (chunk : EffectChunk Row) : DistinctContext Row Key Out Bytes :=
  ((boundStart tables key budget row).frontierAppended chunk.chunkLsn).inputMoved
    (movedInput tables.input key row (row.nextChunkSeq + 1) chunk.chunkLsn {}).stream

include stands stored atCursor kind

theorem step_forwards : step spec (startContext tables key budget row) =
    stepFrontier (boundStart tables key budget row) (storedAt tables row 0 .frontier) chunk := by
  have continuation := stands.standing.continuation
  rw [stands.standing.fresh rfl, standingCursor] at continuation
  rw [step_at spec key tables budget row 0 stands chunk stored atCursor .frontier]
  · rfl
  · exact fun _ => ⟨rfl, by rw [kind]⟩
  · intro saved isSaved
    rw [isSaved] at continuation
    cases continuation

include flowing

theorem frontier_step (numbers : tables.output.stream.nextChunkSeq ≠ bigintMax) :
    stepDistinct spec tables key budget = .ok (forwardedTables key tables row chunk) := by
  have produced := stands.good.input.produced.stored.subset stored
  obtain ⟨member, named⟩ := found_consumer tables.input key row stands.found
  have drained := stands.standing.fresh rfl
  have unsaved : tables.continuation = none := by
    rw [stands.standing.continuation, drained]
    rfl
  have empty : requireEmptyQueue (boundStart tables key budget row).tables.state = .ok () := by
    have none : (boundStart tables key budget row).tables.state.queue = [] := drained
    rw [requireEmptyQueue, none]
    rfl
  have ready : OutputReady tables.output.stream :=
    ⟨stands.good.output.operator, stands.good.output.watched, stands.good.output.numbered, flowing⟩
  have fits := chunk_frontier_fits stands.standing.follows produced
    atCursor stands.good.input stands.good.operator kind numbers
  have appended := append_frontier_ok (boundStart tables key budget row) ⟨rfl, rfl⟩ chunk.chunkLsn ready fits
  have raised := frontier_ahead stands.good.input stands.good.operator member stands.flat produced
    (Nat.le_of_eq atCursor.symm)
  have carried : carriedFrontier row chunk = chunk.chunkLsn := by
    simp only [carriedFrontier, kind]
    exact Nat.max_eq_right raised
  have causal := operator_move_causal stands.good.input stands.good.operator stored atCursor {}
  rw [carried] at causal
  have advanced := advance_input_ok ((boundStart tables key budget row).frontierAppended chunk.chunkLsn) row stands.found rfl
    rfl (row.nextChunkSeq + 1) chunk.chunkLsn {}
    (chunk_move_fits stands.good.input stands.first chunk stored atCursor _ raised) causal
  have bound : (forwarded key tables budget row chunk).continuationPresence = some false := by
    change some tables.continuation.isSome = some false
    rw [unsaved]
    rfl
  have replaced : replaceContinuation (forwarded key tables budget row chunk) (storedAt tables row 0 .frontier) none =
      .ok ((forwarded key tables budget row chunk).withContinuation none) := by
    have changed := replace_continuation_ok (forwarded key tables budget row chunk) none "Distinct" (by
      rw [bound]
      change _ = some tables.continuation.isSome
      rw [unsaved]
      rfl)
    have isNone : (forwarded key tables budget row chunk).tables.continuation = none := unsaved
    rw [isNone] at changed
    have fresh : (storedAt tables row 0 .frontier).persisted = false := by
      change tables.continuation.isSome = false
      rw [unsaved]
      rfl
    unfold replaceContinuation
    rw [fresh]
    exact changed
  obtain ⟨settles, committable⟩ := frontier_facts_commits ((forwarded key tables budget row chunk).withContinuation none)
    tables.output.stream.nextChunkSeq (Nat.ne_of_gt stands.good.output.numbered) rfl rfl rfl rfl
  have forwards := machine_forwards ⟨tables.input.stream.streamId, row.nextChunkSeq, 0⟩ budget stands.good.streamId stands.first
    rfl (Nat.ne_of_gt stands.good.output.numbered)
  have executed : step spec (startContext tables key budget row) =
      .ok ((forwarded key tables budget row chunk).withContinuation none,
        ((forwarded key tables budget row chunk).withContinuation none).stepReceipt .frontier {} false) := by
    rw [step_forwards spec key tables budget row stands chunk stored atCursor kind]
    unfold stepFrontier
    have start : (storedAt tables row 0 .frontier).value.input.rowOrdinal = 0 := rfl
    simp only [start, ne_eq, not_true_eq_false, decide_false, not_refused, ok_bind, empty, appended,
      atCursor]
    refine bind_ok_iff.mpr ⟨_, advanced, ?_⟩
    refine bind_ok_iff.mpr ⟨_, replaced, ?_⟩
    exact bind_ok_iff.mpr ⟨_, forwards, settles⟩
  rw [kernel_commits spec key tables budget row 0 stands chunk stored atCursor flowing _ .frontier {} false executed
    committable (by decide)]
  rfl

theorem frontier_needs_number (after : DistinctTables Row Key Out Bytes)
    (ok : stepDistinct spec tables key budget = .ok after) : tables.output.stream.nextChunkSeq ≠ bigintMax := by
  have starts := begin_starts tables key budget row stands.found flowing
    (.inr (stored_ahead stands.good.input stored atCursor))
  obtain ⟨stepped, receipt, executed, _⟩ := run_kernel_steps [.admitted, .drain, .frontier] false (step spec) tables key
    budget _ starts after ok
  rw [step_forwards spec key tables budget row stands chunk stored atCursor kind] at executed
  unfold stepFrontier at executed
  have executed := past_check (past_check executed)
  obtain ⟨appended, wrote, _⟩ := bind_ok_iff.mp executed
  exact (append_frontier_fits (boundStart tables key budget row) ⟨rfl, rfl⟩ chunk.chunkLsn wrote).numbers

end Frontier

end Shiba.Distinct
