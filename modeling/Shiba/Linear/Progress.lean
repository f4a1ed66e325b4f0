import Shiba.Linear.DataSteps

set_option autoImplicit false

namespace Shiba.Linear

open Transition Shiba.Stream Shiba.Execution Shiba.Execution.StepContext

variable {Row Out : Type}

-- A saved frontier the output can still take.
def ScanSafe (tables : ScanTables Row Out) : Prop :=
  ∀ saved, tables.continuation = some saved → saved.phase = .sourceFrontier →
    ∀ frontier, saved.pendingFrontierLsn = some frontier →
      reachedBy tables.output.stream.publishedFrontierLsn frontier = false ∧
        behind tables.output.stream.latestDataLsn frontier = false

def cursorChunk (tables : ScanTables Row Out) (row : StreamConsumer) : Option (EffectChunk Row) :=
  tables.input.stream.chunks.find? fun chunk => chunk.chunkSeq = row.nextChunkSeq

-- The chunk sequence space of the output is not used up.
def Numbered (tables : ScanTables Row Out) : Prop := tables.output.stream.nextChunkSeq ≠ bigintMax

-- A step that finishes its chunk must find the next chunk above its own
-- frontier, and a published frontier at or above the chunk it has emitted.
structure ChunkClear (spec : ScanSpec Row Out) (tables : ScanTables Row Out) (row : StreamConsumer) (budget : WorkBudget)
    (chunk : EffectChunk Row) (ordinal : Nat) : Prop where
  numbered : emits row chunk = true → Numbered tables
  leaves : restFits spec budget (outputState tables.output.stream) (pendingRows chunk ordinal) (emits row chunk) →
    ∀ lsn, nextUnconsumedLsn tables.input.stream (row.nextChunkSeq + 1) = some lsn → row.consumedFrontierLsn < lsn
  covers : restFits spec budget (outputState tables.output.stream) (pendingRows chunk ordinal) (emits row chunk) →
    emits row chunk = true → ∀ frontier, tables.input.published = some frontier → row.consumedFrontierLsn < frontier →
      chunk.chunkLsn ≤ frontier

def IdleClear (spec : ScanSpec Row Out) (tables : ScanTables Row Out) (row : StreamConsumer) (budget : WorkBudget) : Prop :=
  match cursorChunk tables row with
  | some chunk => ChunkClear spec tables row budget chunk 0
  | none => Numbered tables ∧
      ∀ frontier, tables.input.published = some frontier → behind tables.output.stream.latestDataLsn frontier = false

def StepClear (spec : ScanSpec Row Out) (tables : ScanTables Row Out) (row : StreamConsumer) (budget : WorkBudget) : Prop :=
  match tables.continuation with
  | none => IdleClear spec tables row budget
  | some saved =>
      match saved.phase with
      | .bootstrap => tables.state ≠ [] → Numbered tables
      | .snapshotFrontier => Numbered tables
      | .sourceFrontier => Numbered tables
      | .data => ∀ chunk, cursorChunk tables row = some chunk →
          ChunkClear spec tables row budget chunk (saved.nextRowOrdinal.getD 0)

-- A ready step that meets its condition; calls of the surroundings are free.
def clearCall (spec : ScanSpec Row Out) (key : ConsumerKey) (tables : ScanTables Row Out) : ScanCall spec key → Prop
  | .step budget => ∀ row, tables.input.stream.findConsumer key = some row →
      (∃ context, begin tables key budget = .ok (.ready context)) → StepClear spec tables row budget
  | _ => True

theorem scan_invariant_safe {spec : ScanSpec Row Out} {key : ConsumerKey} {tables : ScanTables Row Out}
    (good : ScanInvariant spec key tables) : ScanSafe tables := by
  obtain ⟨row, member, named, first, baseline, phase⟩ := good.consumer
  intro saved isSaved isFrontier frontier pending
  rw [isSaved] at phase
  cases phase with
  | bootstrap next positive booting spool => cases isFrontier
  | snapshotFrontier booting => cases isFrontier
  | data live chunk produced atCursor ordinal started inside => cases isFrontier
  | sourceFrontier reached due =>
      obtain rfl := Option.some.inj pending
      refine ⟨?_, due.covers⟩
      rw [due.live.published]
      simpa using due.risen

section Ready

variable (spec : ScanSpec Row Out) (key : ConsumerKey) {tables : ScanTables Row Out} (budget : WorkBudget)
  (row : StreamConsumer) (good : ScanInvariant spec key tables) (found : tables.input.stream.findConsumer key = some row)
  (flowing : tables.output.stream.backpressured = false)

include good found

-- A stage without a chunk has only a frontier to wait for.
theorem idle_frontier (missing : cursorChunk tables row = none) (pending : (inputState tables.input row).hasPending = true) :
    ∃ frontier, tables.input.published = some frontier ∧ row.consumedFrontierLsn < frontier := by
  have exhausted := nothing_produced spec key tables row good found row.nextChunkSeq (Nat.le_refl _) missing
  have first := (row_phase spec key tables row good found).1
  have length := good.input.produced.next
  have atEnd : ¬ row.nextChunkSeq < tables.input.stream.nextChunkSeq := by
    intro before
    have present : row.nextChunkSeq ∈ tables.input.produced.map EffectChunk.chunkSeq := by
      rw [good.input.produced.numbered, List.mem_range'_1]
      omega
    obtain ⟨chunk, produced, isNext⟩ := List.mem_map.mp present
    exact exhausted chunk produced (Nat.le_of_eq isNext.symm)
  simp only [InputState.hasPending, inputState, atEnd, decide_false, Bool.false_or, input_is_source spec key tables good,
    if_true] at pending
  cases published : tables.input.published with
  | none => simp [published] at pending
  | some frontier => exact ⟨frontier, rfl, by simpa [published] using pending⟩

include flowing

-- A chunk at the cursor is taken as far as the step's budget reaches.
theorem chunk_goes (live : Live tables row) (chunk : EffectChunk Row) (isChunk : cursorChunk tables row = some chunk)
    (ordinal : Nat) (cursor : tables.continuation = dataCursor tables.input.stream.streamId row.nextChunkSeq ordinal)
    (inside : ordinal < chunk.rowCount) (clear : ChunkClear spec tables row budget chunk ordinal) :
    Goes spec key tables budget row := by
  obtain ⟨stored, atCursor⟩ := chunk_found chunk isChunk
  have counted := good.counted chunk (stored_data spec key tables good stored).1
  have taken := data_page_taken budget row counted inside good.output.target
  by_cases whole : ordinal + (dataPage spec tables budget row chunk ordinal).length = chunk.rowCount
  · have rest := (page_whole_iff budget row counted inside good.output.target).mp whole
    exact chunk_whole_goes spec key tables budget row chunk ordinal good found live isChunk cursor inside flowing
      clear.numbered whole (clear.leaves rest) (clear.covers rest)
  · obtain ⟨count, isPrefix⟩ := taken.isPrefix
    have short : (dataPage spec tables budget row chunk ordinal).length ≤ (pendingRows chunk ordinal).length := by
      rw [isPrefix]
      exact List.length_take_le' _ _
    rw [pendingRows, List.length_drop, ← counted.rows] at short
    exact chunk_inside_goes spec key tables budget row chunk ordinal good found live isChunk cursor inside flowing
      clear.numbered (by omega)

theorem idle_goes (live : Live tables row) (fresh : tables.continuation = none)
    (pending : (inputState tables.input row).hasPending = true) (clear : IdleClear spec tables row budget) :
    Goes spec key tables budget row := by
  cases isChunk : cursorChunk tables row with
  | some chunk =>
      simp only [IdleClear, isChunk] at clear
      obtain ⟨stored, atCursor⟩ := chunk_found chunk isChunk
      have counted := good.counted chunk (stored_data spec key tables good stored).1
      have inside : 0 < chunk.rowCount := by
        rw [counted.rows]
        exact List.length_pos_iff.mpr counted.present
      exact chunk_goes spec key budget row good found flowing live chunk isChunk 0 fresh inside clear
  | none =>
      simp only [IdleClear, isChunk] at clear
      have exhausted := nothing_produced spec key tables row good found row.nextChunkSeq (Nat.le_refl _) isChunk
      obtain ⟨slotGeneration, producer⟩ := good.source
      obtain ⟨frontier, published, risen⟩ := idle_frontier spec key row good found isChunk pending
      refine available_frontier_goes spec key tables budget row good found flowing frontier
        ⟨live, risen, ⟨fun chunk produced _ ahead => absurd ahead (exhausted chunk produced), ?_⟩, clear.2 frontier published⟩
        fresh published isChunk clear.1
      simp [closedThrough, producer, published]

-- A ready step that meets its condition commits and keeps the stage's invariant.
theorem clear_goes (work : tables.hasContinuation = true ∨ (inputState tables.input row).hasPending = true)
    (clear : StepClear spec tables row budget) : Goes spec key tables budget row := by
  obtain ⟨first, baseline, phase⟩ := row_phase spec key tables row good found
  cases saved : tables.continuation with
  | none =>
      rw [saved] at phase
      simp only [StepClear, saved] at clear
      have pending : (inputState tables.input row).hasPending = true := by
        rcases work with has | pending
        · rw [good.checkpoint, saved] at has
          cases has
        · exact pending
      cases phase with
      | idle live => exact idle_goes spec key budget row good found flowing live saved pending clear
  | some continuation =>
      rw [saved] at phase
      simp only [StepClear, saved] at clear
      cases phase with
      | bootstrap next positive booting spool =>
          by_cases empty : tables.state = []
          · exact empty_spool_goes spec key budget row good found next positive booting spool saved empty
          · exact spool_goes spec key budget row good found next positive booting spool saved flowing empty (clear empty)
      | snapshotFrontier booting => exact snapshot_goes spec key tables budget row good found flowing booting saved clear
      | data live chunk produced atCursor ordinal started inside =>
          have cursor : tables.continuation = dataCursor tables.input.stream.streamId row.nextChunkSeq ordinal := by
            rw [saved, dataCursor, if_neg (Nat.ne_of_gt started)]
          have stored := (row_consumer spec key tables row good found).retained chunk produced (Nat.le_of_eq atCursor.symm)
          have isChunk : cursorChunk tables row = some chunk := stored_found good.input stored atCursor
          exact chunk_goes spec key budget row good found flowing live chunk isChunk ordinal cursor inside
            (clear chunk isChunk)
      | sourceFrontier frontier due =>
          exact saved_frontier_goes spec key tables budget row good found flowing frontier due saved clear

end Ready

section Stuck

variable {spec : ScanSpec Row Out} (key : ConsumerKey) {tables : ScanTables Row Out} {budget : WorkBudget}
  (row : StreamConsumer) (good : ScanInvariant spec key tables) (found : tables.input.stream.findConsumer key = some row)
  (flowing : tables.output.stream.backpressured = false) (result : ScanContext Row Out × StepReceipt)
  (executed : executeScan spec (startContext tables key budget row) = .ok result)

include good executed

-- A frontier step needs a fitting frontier.
theorem saved_frontier_needs (frontier : Lsn)
    (saved : tables.continuation = some (frontierContinuation tables.input.stream.streamId frontier)) : Numbered tables := by
  rw [execute_saved spec key tables budget row good _ saved rfl
    (frontier_continuation_valid _ _ good.streamId)] at executed
  simp only [stepSaved, frontierContinuation, stepScanFrontier] at executed
  have executed := past_check (past_check executed)
  obtain ⟨appended, ran, _⟩ := bind_ok_iff.mp executed
  exact (append_frontier_fits (boundContext tables key budget row) ⟨rfl, rfl⟩ frontier ran).numbers

theorem snapshot_needs (saved : tables.continuation = some
    (snapshotContinuation tables.input.stream.streamId row.activationLsn)) : Numbered tables := by
  rw [execute_saved spec key tables budget row good _ saved rfl (by
    simp [validateScanContinuation, snapshotContinuation, Nat.ne_of_gt good.streamId, refuse, bind, Except.bind])] at executed
  simp only [stepSaved, snapshotContinuation, stepSnapshotFrontier] at executed
  obtain ⟨_, executed⟩ := refuse_bind_ok.mp executed
  obtain ⟨appended, ran, _⟩ := bind_ok_iff.mp executed
  exact (append_frontier_fits (boundContext tables key budget row) ⟨rfl, rfl⟩ row.activationLsn ran).numbers

theorem bootstrap_needs (next : Nat) (positive : 0 < next)
    (numbered : tables.state.map Prod.fst = List.range' next tables.state.length)
    (saved : tables.continuation = some (bootstrapContinuation tables.input.stream.streamId next))
    (present : tables.state ≠ []) : Numbered tables := by
  obtain ⟨count, within, page, cut⟩ := page_of_spool spec tables budget next numbered good.output.target
  obtain ⟨taken, fits⟩ := cut present
  have valid := page_usage_valid spec tables budget count fits
  rw [execute_saved spec key tables budget row good _ saved rfl (bootstrap_valid spec key good next positive)] at executed
  simp only [stepSaved, bootstrapContinuation, stepBootstrap] at executed
  obtain ⟨ran, read, _⟩ := bind_ok_iff.mp executed
  have length : (tables.state.take count).length = count := by
    rw [List.length_take]
    omega
  have sameState : (boundContext tables key budget row).tables.state = tables.state := rfl
  have sameOutput : (boundContext tables key budget row).output = outputState tables.output.stream := rfl
  have sameBudget : (boundContext tables key budget row).budget = budget := rfl
  have notEmpty : ¬ count = 0 := Nat.ne_of_gt taken
  unfold pageUsage at valid
  unfold runBootstrapPrimitive at read
  simp only [sameState, sameOutput, sameBudget, page, length, notEmpty, if_false, valid, ok_bind] at read
  obtain ⟨recorded, wrote, _⟩ := bind_ok_iff.mp read
  exact record_data_numbers (spoolRead tables key budget row count) ⟨rfl, rfl⟩ _ _ _ _ recorded (by
    have remaining := spool_remaining next numbered count
    rw [remaining] at wrote
    exact wrote)

include found

-- Without a chunk the step appends the published frontier itself.
theorem idle_needs (fresh : tables.continuation = none) (missing : cursorChunk tables row = none) (frontier : Lsn)
    (published : tables.input.published = some frontier) (risen : row.consumedFrontierLsn < frontier) :
    FrontierFits tables.output.stream frontier := by
  have first := (row_phase spec key tables row good found).1
  rw [execute_fresh spec key tables budget row good fresh] at executed
  have sameNext : (boundContext tables key budget row).input.nextChunkSeq = row.nextChunkSeq := rfl
  have sameInput : (boundContext tables key budget row).tables.input = tables.input := rfl
  have reads := chunk_at_ok spec key tables good first
  have noChunk : chunkAt tables.input row.nextChunkSeq = .ok none := by
    rw [reads]
    exact congrArg Except.ok missing
  have available : availableFrontier (boundContext tables key budget row) = some frontier := by
    simp [availableFrontier, boundContext, startContext, inputState, input_is_source spec key tables good, published, risen]
  simp only [stepNextChunk, sameNext, sameInput, noChunk, ok_bind, stepAvailableSourceFrontier, available] at executed
  have executed := past_check (past_check executed)
  obtain ⟨appended, ran, _⟩ := bind_ok_iff.mp executed
  exact append_frontier_fits (boundContext tables key budget row) ⟨rfl, rfl⟩ frontier ran

section Chunk

variable (live : Live tables row) (chunk : EffectChunk Row) (isChunk : cursorChunk tables row = some chunk) {ordinal : Nat}
  (cursor : tables.continuation = dataCursor tables.input.stream.streamId row.nextChunkSeq ordinal)
  (inside : ordinal < chunk.rowCount)

include isChunk cursor inside

omit inside in
theorem chunk_runs : ∃ ran, runTransformPrimitive spec (boundContext tables key budget row) chunk ordinal (emits row chunk) =
      .ok ran ∧ ∃ context, finishTransform ran.1 tables.continuation.isSome chunk ordinal (ran.2.lastOrdinal + 1) =
      .ok context := by
  rw [execute_chunk spec key tables budget row chunk ordinal good found isChunk cursor] at executed
  unfold stepDataTransform at executed
  have executed := past_check (past_check executed)
  simp only at executed
  split at executed
  · obtain ⟨_, _, executed⟩ := bind_ok_iff.mp executed
    obtain ⟨ran, read, executed⟩ := bind_ok_iff.mp executed
    obtain ⟨_, executed⟩ := refuse_bind_ok.mp executed
    obtain ⟨context, finish, _⟩ := bind_ok_iff.mp executed
    exact ⟨ran, read, context, finish⟩
  · obtain ⟨ran, read, executed⟩ := bind_ok_iff.mp executed
    obtain ⟨_, executed⟩ := refuse_bind_ok.mp executed
    obtain ⟨context, finish, _⟩ := bind_ok_iff.mp executed
    exact ⟨ran, read, context, finish⟩

theorem chunk_needs_number (emitted : emits row chunk = true) : Numbered tables := by
  obtain ⟨stored, atCursor⟩ := chunk_found chunk isChunk
  have counted := good.counted chunk (stored_data spec key tables good stored).1
  have valid := data_usage_valid budget row counted inside good.output.target
  have present := emitted_present budget row counted inside good.output.target emitted
  obtain ⟨ran, read, _⟩ := chunk_runs key row good found result executed chunk isChunk cursor
  have length : ¬ (emittedRows spec tables budget row chunk ordinal).length = 0 := by
    simpa using present
  have sameOutput : (boundContext tables key budget row).output = outputState tables.output.stream := rfl
  have sameBudget : (boundContext tables key budget row).budget = budget := rfl
  have whole : chunk.payload.take chunk.rowCount = chunk.payload := by
    rw [counted.rows]
    exact List.take_length
  have isPage : transformPage spec budget (outputState tables.output.stream) (chunk.payload.drop ordinal) (emits row chunk) =
      dataPage spec tables budget row chunk ordinal := rfl
  have inserted : (if emits row chunk = true then (dataPage spec tables budget row chunk ordinal).map spec.emit else []) =
      emittedRows spec tables budget row chunk ordinal := rfl
  unfold dataUsage at valid
  unfold runTransformPrimitive at read
  obtain ⟨_, read⟩ := refuse_bind_ok.mp read
  simp only [sameOutput, sameBudget, whole, isPage, inserted, valid, ok_bind, length, if_false] at read
  obtain ⟨_, read⟩ := refuse_bind_ok.mp read
  obtain ⟨recorded, wrote, _⟩ := bind_ok_iff.mp read
  exact record_data_numbers (boundContext tables key budget row) ⟨rfl, rfl⟩ _ _ _ _ recorded wrote

include live

-- A step that finishes its chunk has moved the cursor past it.
theorem chunk_needs_leave
    (whole : ordinal + (dataPage spec tables budget row chunk ordinal).length = chunk.rowCount) :
    ∀ lsn, nextUnconsumedLsn tables.input.stream (row.nextChunkSeq + 1) = some lsn → row.consumedFrontierLsn < lsn := by
  obtain ⟨stored, atCursor⟩ := chunk_found chunk isChunk
  have counted := good.counted chunk (stored_data spec key tables good stored).1
  have numbers := chunk_needs_number key row good found result executed chunk isChunk cursor inside
  have data := fun emitted => live_fits spec key tables row chunk good found live isChunk (numbers emitted) emitted
  obtain ⟨ran, read, context, finish⟩ := chunk_runs key row good found result executed chunk isChunk cursor
  have run := run_transform_ok key budget row counted inside good.output.target data
  obtain rfl := Except.ok.inj (run.symm.trans read)
  have started := transformed_started spec key tables budget row chunk ordinal
  have last : ordinal + (dataPage spec tables budget row chunk ordinal).length - 1 + 1 = chunk.rowCount := by omega
  simp only [last] at finish
  exact (leave_causal spec key tables row good _).mp
    (finish_whole_causal spec key tables budget row chunk ordinal good found atCursor _ started context finish)

end Chunk

end Stuck

-- What a step leaves: a saved frontier that can be appended, and no frontier
-- appended below the output's own or its data.
structure StepSafe (before after : ScanTables Row Out) : Prop where
  saved : ScanSafe after
  appended : ∀ frontier, after.output.stream.publishedFrontierLsn = some frontier →
    before.output.stream.publishedFrontierLsn = some frontier ∨
      (reachedBy before.output.stream.publishedFrontierLsn frontier = false ∧
        behind before.output.stream.latestDataLsn frontier = false)

section Exact

variable (spec : ScanSpec Row Out) (key : ConsumerKey) {tables : ScanTables Row Out} {budget : WorkBudget}
  (row : StreamConsumer) (good : ScanInvariant spec key tables) (found : tables.input.stream.findConsumer key = some row)
  (flowing : tables.output.stream.backpressured = false)
  (started : begin tables key budget = .ok (.ready (startContext tables key budget row)))

include good started

theorem committed_step {stepped : ScanContext Row Out} {phase : KernelPhase} {usage : WorkUsage} {hasContinuation : Bool}
    (executed : executeScan spec (startContext tables key budget row) =
      .ok (stepped, stepped.stepReceipt phase usage hasContinuation))
    (supported : phase ∈ [KernelPhase.admitted, .process, .frontier])
    (committable : stepped.Committable phase usage hasContinuation) :
    stepScan spec tables key budget = .ok (stepped.committedTables hasContinuation) :=
  run_kernel_ok _ true (executeScan spec) tables key budget _ started (input_is_source spec key tables good) stepped phase
    usage hasContinuation supported executed committable

theorem goes_step (goes : Goes spec key tables budget row) :
    ∃ after, stepScan spec tables key budget = .ok after ∧ ScanInvariant spec key after ∧ StepSafe tables after := by
  obtain ⟨stepped, phase, usage, hasContinuation, executed, supported, committable, kept, appended⟩ := goes
  refine ⟨_, committed_step spec key row good started executed supported
    committable, kept, scan_invariant_safe kept, fun frontier published => ?_⟩
  exact (appended frontier published).imp id fun fits => ⟨fits.rises, fits.covers⟩

include found flowing

section

variable {ordinal : Nat} {chunk : EffectChunk Row} {after : ScanTables Row Out}

variable (live : Live tables row) (isChunk : cursorChunk tables row = some chunk)
  (cursor : tables.continuation = dataCursor tables.input.stream.streamId row.nextChunkSeq ordinal)
  (inside : ordinal < chunk.rowCount)

include live isChunk cursor inside

-- Emitting a chunk above the published frontier and saving that frontier leaves
-- a frontier the output cannot take any more.
theorem chunk_needs_cover (whole : ordinal + (dataPage spec tables budget row chunk ordinal).length = chunk.rowCount)
    (numbers : emits row chunk = true → Numbered tables)
    (leaves : ∀ lsn, nextUnconsumedLsn tables.input.stream (row.nextChunkSeq + 1) = some lsn → row.consumedFrontierLsn < lsn)
    (ran : stepScan spec tables key budget = .ok after) (safe : ScanSafe after) (emitted : emits row chunk = true)
    {frontier : Lsn} (published : tables.input.published = some frontier) (risen : row.consumedFrontierLsn < frontier) :
    chunk.chunkLsn ≤ frontier := by
  obtain ⟨stored, atCursor⟩ := chunk_found chunk isChunk
  obtain ⟨produced, _⟩ := stored_data spec key tables good stored
  obtain ⟨stepped, executed, committable, committed⟩ := chunk_whole_commits spec key tables budget row chunk ordinal good
    found live isChunk cursor inside flowing numbers whole leaves
  have stepped := committed_step spec key row good started executed (by simp) committable
  rw [committed] at stepped
  obtain rfl := Except.ok.inj (ran.symm.trans stepped)
  by_contra low
  have saved : savedFrontier tables row (row.nextChunkSeq + 1) = some frontier := by
    simp only [savedFrontier, published, Option.filter_some, decide_eq_true risen, if_true]
    rw [if_pos]
    cases isNext : tables.input.stream.chunks.find? fun chunk => chunk.chunkSeq = row.nextChunkSeq + 1 with
    | none => rfl
    | some next =>
        obtain ⟨nextStored, isSeq⟩ := chunk_found next isNext
        have order := produced_upto spec key tables good produced (stored_data spec key tables good nextStored).1 (by omega)
        exact decide_eq_true (Nat.lt_of_lt_of_le (Nat.lt_of_not_le low) order)
  have continuation : (afterChunk spec key tables budget row chunk ordinal).continuation =
      some (frontierContinuation tables.input.stream.streamId frontier) := by
    simp [afterChunk, saved]
  have covered := (safe _ continuation rfl frontier rfl).2
  have latest : (afterChunk spec key tables budget row chunk ordinal).output.stream.latestDataLsn =
      some (greatestLsn tables.output.stream.latestDataLsn chunk.chunkLsn) := by
    simp only [afterChunk, writtenOutput, emitted, if_true]
    rfl
  rw [latest, behind_some, decide_eq_false_iff_not] at covered
  have above := greatest_lsn_ge tables.output.stream.latestDataLsn chunk.chunkLsn
  exact low (Nat.le_trans above (Nat.le_of_not_lt covered))

-- The condition of a chunk is what its step needs.
theorem chunk_needs (ran : stepScan spec tables key budget = .ok after) (safe : ScanSafe after) :
    ChunkClear spec tables row budget chunk ordinal := by
  obtain ⟨stepped, receipt, executed, _⟩ := run_kernel_steps _ true (executeScan spec) tables key budget _ started after ran
  obtain ⟨stored, atCursor⟩ := chunk_found chunk isChunk
  have counted := good.counted chunk (stored_data spec key tables good stored).1
  have isWhole := (page_whole_iff budget row counted inside good.output.target).mpr
  have numbers := chunk_needs_number key row good found _ executed chunk isChunk cursor inside
  refine ⟨numbers, ?_, ?_⟩
  · intro rest
    exact chunk_needs_leave key row good found _ executed live chunk isChunk cursor inside (isWhole rest)
  · intro rest emitted frontier published risen
    have leaves := chunk_needs_leave key row good found _ executed live chunk isChunk cursor inside (isWhole rest)
    exact chunk_needs_cover spec key row good found flowing started live isChunk cursor inside
      (isWhole rest) numbers leaves ran safe emitted published risen

end

theorem step_needs (work : tables.hasContinuation = true ∨ (inputState tables.input row).hasPending = true)
    (after : ScanTables Row Out) (ran : stepScan spec tables key budget = .ok after) (safe : ScanSafe after) :
    StepClear spec tables row budget := by
  obtain ⟨first, baseline, phase⟩ := row_phase spec key tables row good found
  obtain ⟨stepped, receipt, executed, _⟩ := run_kernel_steps _ true (executeScan spec) tables key budget _ started after ran
  cases saved : tables.continuation with
  | none =>
      rw [saved] at phase
      simp only [StepClear, saved]
      have pending : (inputState tables.input row).hasPending = true := by
        rcases work with has | pending
        · rw [good.checkpoint, saved] at has
          cases has
        · exact pending
      cases phase with
      | idle live =>
          cases isChunk : cursorChunk tables row with
          | some chunk =>
              simp only [IdleClear, isChunk]
              obtain ⟨stored, _⟩ := chunk_found chunk isChunk
              have counted := good.counted chunk (stored_data spec key tables good stored).1
              have inside : 0 < chunk.rowCount := by
                rw [counted.rows]
                exact List.length_pos_iff.mpr counted.present
              exact chunk_needs spec key row good found flowing started live isChunk saved inside ran safe
          | none =>
              simp only [IdleClear, isChunk]
              obtain ⟨frontier, published, risen⟩ := idle_frontier spec key row good found isChunk pending
              have fits := idle_needs key row good found _ executed saved isChunk frontier published risen
              refine ⟨fits.numbers, fun other isPublished => ?_⟩
              obtain rfl := Option.some.inj (published.symm.trans isPublished)
              exact fits.covers
  | some continuation =>
      rw [saved] at phase
      simp only [StepClear, saved]
      cases phase with
      | bootstrap next positive booting spool =>
          exact bootstrap_needs key row good _ executed next positive spool saved
      | snapshotFrontier booting => exact snapshot_needs key row good _ executed saved
      | data live chunk produced atCursor ordinal started' inside =>
          have cursor : tables.continuation = dataCursor tables.input.stream.streamId row.nextChunkSeq ordinal := by
            rw [saved, dataCursor, if_neg (Nat.ne_of_gt started')]
          intro other isChunk
          have stored := (row_consumer spec key tables row good found).retained chunk produced (Nat.le_of_eq atCursor.symm)
          have same : cursorChunk tables row = some chunk := stored_found good.input stored atCursor
          obtain rfl := Option.some.inj (same.symm.trans isChunk)
          exact chunk_needs spec key row good found flowing started live isChunk cursor inside ran safe
      | sourceFrontier frontier due => exact saved_frontier_needs key row good _ executed frontier saved

end Exact

theorem scan_step_keeps {spec : ScanSpec Row Out} {key : ConsumerKey} {tables after : ScanTables Row Out} {budget : WorkBudget}
    (good : ScanInvariant spec key tables) (clear : clearCall spec key tables (.step budget))
    (ran : stepScan spec tables key budget = .ok after) : ScanInvariant spec key after := by
  cases start : begin tables key budget with
  | error fault =>
      unfold stepScan runKernel at ran
      rw [start] at ran
      cases ran
  | ok outcome =>
      cases outcome with
      | blocked | idle =>
          unfold stepScan runKernel at ran
          rw [start] at ran
          obtain rfl := Except.ok.inj ran
          exact good
      | ready context =>
          obtain ⟨row, found, flowing, work, rfl⟩ := begin_ready start
          have goes := clear_goes spec key budget row good found flowing work (clear row found ⟨_, start⟩)
          obtain ⟨other, stepped, kept, _⟩ := goes_step spec key row good start goes
          obtain rfl := Except.ok.inj (ran.symm.trans stepped)
          exact kept

theorem scan_path_invariant (spec : ScanSpec Row Out) (key : ConsumerKey) (start tables : ScanTables Row Out)
    (registered : ScanRegistered spec key start) (ran : Path (scanStep spec key) (clearCall spec key) start tables) :
    ScanInvariant spec key tables := by
  apply path_invariant (ScanInvariant spec key) _ start tables (scan_registered_invariant spec key start registered) ran
  intro before call after good clear taken
  cases call with
  | source op counted other =>
      obtain ⟨input, moved, rfl⟩ := except_map_ok taken
      exact scan_source_keeps counted other moved good
  | reader op reads =>
      obtain ⟨output, moved, rfl⟩ := except_map_ok taken
      exact scan_reader_keeps reads moved good
  | step budget => exact scan_step_keeps good clear taken

-- In every run whose ready steps meet their condition no saved frontier is out
-- of reach; and a ready step commits and leaves such a state exactly when it
-- meets the condition.
theorem scan_never_stuck (spec : ScanSpec Row Out) (key : ConsumerKey) (start tables : ScanTables Row Out)
    (registered : ScanRegistered spec key start) (ran : Path (scanStep spec key) (clearCall spec key) start tables) :
    ScanSafe tables ∧ ∀ budget context, begin tables key budget = .ok (.ready context) →
      ((∃ after, stepScan spec tables key budget = .ok after ∧ StepSafe tables after) ↔
        clearCall spec key tables (.step budget)) := by
  have good := scan_path_invariant spec key start tables registered ran
  refine ⟨scan_invariant_safe good, fun budget context ready => ?_⟩
  obtain ⟨row, found, flowing, work, rfl⟩ := begin_ready ready
  constructor
  · rintro ⟨after, stepped, safe⟩ other otherFound _
    obtain rfl := Option.some.inj (found.symm.trans otherFound)
    exact step_needs spec key row good found flowing ready work after stepped safe.saved
  · intro clear
    have goes := clear_goes spec key budget row good found flowing work (clear row found ⟨_, ready⟩)
    obtain ⟨after, stepped, _, safe⟩ := goes_step spec key row good ready goes
    exact ⟨after, stepped, safe⟩

def plainScan : ScanSpec Nat Nat := ⟨100, id, fun _ => 1, fun _ => 1⟩

def smallBudget : WorkBudget := { maxInputRows := 8, maxInputBytes := 64, maxOutputRows := 8, maxOutputBytes := 64 }

-- A Scan registered at 0/5 over an empty table, with one reader.
def registeredScan : ScanTables Nat Nat where
  input := attempts historyStep (sourceStart (some 5)) [.attach ⟨true, false⟩ scanConsumer 5]
  output := ⟨{ freshStream smallLimits 2 (.operator 900 1) with consumers := [⟨⟨900, 2, 0⟩, 1, 0, 0⟩] }, none, []⟩
  hasContinuation := true
  continuation := some (bootstrapContinuation 1 1)
  state := []

theorem scan_registered : ScanRegistered plainScan scanConsumer registeredScan where
  input := ⟨_, _, ⟨true, false⟩, 5, ⟨smallLimits, 1, .source 1 100, some 5, rfl⟩, .here, rfl⟩
  source := ⟨1, rfl⟩
  streamId := by decide
  output := ⟨smallLimits, 2, 900, 1, [⟨⟨900, 2, 0⟩, 1, 0, 0⟩], by decide, by decide, rfl⟩
  continuation := rfl
  checkpoint := rfl
  spool := rfl

theorem scan_never_stuck_booting :
    ∃ after, stepScan plainScan registeredScan scanConsumer smallBudget = .ok after ∧ StepSafe registeredScan after :=
  ((scan_never_stuck plainScan scanConsumer registeredScan registeredScan scan_registered .here).2 smallBudget
    (startContext registeredScan scanConsumer smallBudget ⟨scanConsumer, 1, 5, 5⟩) rfl).mpr (by
      intro row found _ present
      exact absurd rfl present)

-- The snapshot is done, the generation has published up to 0/8, and then a
-- chunk at 0/A is published and consumed.
def chunkAboveFrontier : List (ScanCall plainScan scanConsumer) :=
  [.step smallBudget, .step smallBudget, .source (.publish 8) trivial trivial,
    .source (.append 1 .data 1 9 10 [⟨1, 7⟩]) ⟨rfl, rfl⟩ trivial, .step smallBudget]

theorem scan_stuck : ScanRegistered plainScan scanConsumer registeredScan ∧
    ∃ tables, Path (scanStep plainScan scanConsumer) (fun _ _ => True) registeredScan tables ∧
      (∃ context, begin tables scanConsumer smallBudget = .ok (.ready context)) ∧
      stepScan plainScan tables scanConsumer smallBudget =
        .error (.raised "22000" "operator frontier is not advancing past its data") ∧ ¬ ScanSafe tables := by
  refine ⟨scan_registered, _, run_path (fun _ _ => trivial) _ chunkAboveFrontier .here rfl, ⟨_, rfl⟩, rfl, ?_⟩
  intro safe
  have covered := (safe (frontierContinuation 1 8) rfl rfl 8 rfl).2
  cases covered

end Shiba.Linear
