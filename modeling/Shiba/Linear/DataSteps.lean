import Shiba.Linear.BootstrapSteps

set_option autoImplicit false

namespace Shiba.Linear

open Shiba.Stream Shiba.Execution Shiba.Execution.StepContext

variable {Row Out : Type}

-- The saved cursor of a chunk that is partly read.
def dataCursor (streamId chunkSeq ordinal : Nat) : Option ScanContinuation :=
  if ordinal = 0 then none else some (dataContinuation streamId chunkSeq ordinal)

theorem data_continuation_valid {streamId chunkSeq : Nat} (ordinal : Nat) (stream : 0 < streamId) (sequence : 0 < chunkSeq) :
    validateScanContinuation (dataContinuation streamId chunkSeq ordinal) = .ok () := by
  simp only [validateScanContinuation, dataContinuation, Nat.ne_of_gt stream, Option.any_some, decide_eq_true sequence,
    decide_false, refuse]
  rfl

theorem frontier_continuation_valid (streamId : Nat) (frontier : Lsn) (stream : 0 < streamId) :
    validateScanContinuation (frontierContinuation streamId frontier) = .ok () := by
  simp only [validateScanContinuation, frontierContinuation, Nat.ne_of_gt stream, decide_false, refuse]
  rfl

section Chunk

variable (spec : ScanSpec Row Out) (key : ConsumerKey) (tables : ScanTables Row Out) (budget : WorkBudget)
  (row : StreamConsumer) (chunk : EffectChunk Row) (ordinal : Nat)

-- The rows of the chunk the step has left, and those it takes.
def pendingRows (chunk : EffectChunk Row) (ordinal : Nat) : List (EffectRow Row) := chunk.payload.drop ordinal

def emits (row : StreamConsumer) (chunk : EffectChunk Row) : Bool := decide (row.activationLsn < chunk.chunkLsn)

def dataPage (spec : ScanSpec Row Out) (tables : ScanTables Row Out) (budget : WorkBudget) (row : StreamConsumer)
    (chunk : EffectChunk Row) (ordinal : Nat) : List (EffectRow Row) :=
  transformPage spec budget (outputState tables.output.stream) (pendingRows chunk ordinal) (emits row chunk)

def emittedRows (spec : ScanSpec Row Out) (tables : ScanTables Row Out) (budget : WorkBudget) (row : StreamConsumer)
    (chunk : EffectChunk Row) (ordinal : Nat) : List (EffectRow Out) :=
  if emits row chunk then (dataPage spec tables budget row chunk ordinal).map spec.emit else []

def dataUsage (spec : ScanSpec Row Out) (tables : ScanTables Row Out) (budget : WorkBudget) (row : StreamConsumer)
    (chunk : EffectChunk Row) (ordinal : Nat) : WorkUsage :=
  ⟨(dataPage spec tables budget row chunk ordinal).length, spec.sourceBytes (dataPage spec tables budget row chunk ordinal),
    (emittedRows spec tables budget row chunk ordinal).length,
    spec.outputBytes (emittedRows spec tables budget row chunk ordinal)⟩

def dataOutput (tables : ScanTables Row Out) (row : StreamConsumer) (chunk : EffectChunk Row) : OutputFacts :=
  if emits row chunk then .data tables.output.stream.nextChunkSeq else .none

-- The context once the page is in the output.
def transformed (spec : ScanSpec Row Out) (tables : ScanTables Row Out) (key : ConsumerKey) (budget : WorkBudget)
    (row : StreamConsumer) (chunk : EffectChunk Row) (ordinal : Nat) : ScanContext Row Out :=
  if emits row chunk then
    (boundContext tables key budget row).dataRecorded (emittedRows spec tables budget row chunk ordinal).length
      (spec.outputBytes (emittedRows spec tables budget row chunk ordinal)) chunk.chunkLsn
      (emittedRows spec tables budget row chunk ordinal)
  else boundContext tables key budget row

variable (counted : CountedChunk spec chunk) (inside : ordinal < chunk.rowCount)
  (target : 0 < tables.output.stream.targetChunkRows)

include counted inside target

variable {spec tables chunk ordinal}

theorem data_page_taken : PageTaken spec budget (outputState tables.output.stream) (pendingRows chunk ordinal)
    (dataPage spec tables budget row chunk ordinal) (emits row chunk) := by
  apply transform_page_taken
  · exact target
  · intro empty
    have short := List.drop_eq_nil_iff.mp empty
    rw [counted.rows] at inside
    omega

-- The page is the rest of the chunk exactly when the rest fits the budget.
theorem page_whole_iff : ordinal + (dataPage spec tables budget row chunk ordinal).length = chunk.rowCount ↔
    restFits spec budget (outputState tables.output.stream) (pendingRows chunk ordinal) (emits row chunk) := by
  have length : (pendingRows chunk ordinal).length = chunk.rowCount - ordinal := by
    rw [pendingRows, List.length_drop, counted.rows]
  have pending : pendingRows chunk ordinal ≠ [] := List.ne_nil_of_length_pos (by omega)
  rw [← transform_page_whole spec budget (outputState tables.output.stream) (pendingRows chunk ordinal) target pending,
    length, dataPage]
  omega

theorem data_usage_valid : (dataUsage spec tables budget row chunk ordinal).validate budget = .ok () := by
  have taken := data_page_taken budget row counted inside target
  refine usage_valid _ budget ⟨taken.input.counted, taken.input.sized⟩ ?_
  cases emitted : emits row chunk with
  | false => simp [dataUsage, emittedRows, emitted, ScanSpec.outputBytes]
  | true =>
      have fits := taken.output emitted
      simp only [dataUsage, emittedRows, emitted, if_true]
      exact ⟨Nat.le_trans fits.counted (Nat.min_le_left _ _),
        fits.sized.imp (fun small => Nat.le_trans small (Nat.min_le_left _ _)) id⟩

theorem emitted_present (emitted : emits row chunk = true) : emittedRows spec tables budget row chunk ordinal ≠ [] := by
  have taken := data_page_taken budget row counted inside target
  simp only [emittedRows, emitted, if_true]
  intro empty
  exact taken.some (List.map_eq_nil_iff.mp empty)

theorem run_transform_ok (data : emits row chunk = true → DataFits tables.output.stream chunk.chunkLsn) :
    runTransformPrimitive spec (boundContext tables key budget row) chunk ordinal (emits row chunk) =
      .ok (transformed spec tables key budget row chunk ordinal,
        ⟨dataUsage spec tables budget row chunk ordinal, ordinal,
          ordinal + (dataPage spec tables budget row chunk ordinal).length - 1, dataOutput tables row chunk⟩) := by
  have taken := data_page_taken budget row counted inside target
  have valid := data_usage_valid budget row counted inside target
  have present := emitted_present budget row counted inside target
  have someRows : (dataPage spec tables budget row chunk ordinal).isEmpty = false := by
    simpa using taken.some
  have sameOutput : (boundContext tables key budget row).output = outputState tables.output.stream := rfl
  have sameBudget : (boundContext tables key budget row).budget = budget := rfl
  have whole : chunk.payload.take chunk.rowCount = chunk.payload := by
    rw [counted.rows]
    exact List.take_length
  have isPage : transformPage spec budget (outputState tables.output.stream) (chunk.payload.drop ordinal) (emits row chunk) =
      dataPage spec tables budget row chunk ordinal := rfl
  have inserted : (if emits row chunk = true then (dataPage spec tables budget row chunk ordinal).map spec.emit else []) =
      emittedRows spec tables budget row chunk ordinal := rfl
  unfold dataUsage at valid
  unfold runTransformPrimitive
  simp only [sameOutput, sameBudget, whole, isPage, someRows, inserted, valid, refuse, Bool.false_eq_true, if_false, ok_bind]
  cases emitted : emits row chunk with
  | false =>
      have none : emittedRows spec tables budget row chunk ordinal = [] := by simp [emittedRows, emitted]
      simp [none, transformed, emitted, dataUsage, dataOutput, pure, Except.pure]
  | true =>
      have fits := taken.output emitted
      have isEmitted : (dataPage spec tables budget row chunk ordinal).map spec.emit =
          emittedRows spec tables budget row chunk ordinal := by simp [emittedRows, emitted]
      rw [isEmitted] at fits
      have length : ¬ (emittedRows spec tables budget row chunk ordinal).length = 0 := by
        simpa using present emitted
      have withinTarget : (decide (min budget.maxOutputRows (outputState tables.output.stream).targetRows <
            (emittedRows spec tables budget row chunk ordinal).length) ||
          (decide (1 < (emittedRows spec tables budget row chunk ordinal).length) &&
            decide (min budget.maxOutputBytes (outputState tables.output.stream).targetBytes <
              spec.outputBytes (emittedRows spec tables budget row chunk ordinal)))) = false := by
        rw [decide_eq_false (Nat.not_lt.mpr fits.counted), Bool.false_or, Bool.and_eq_false_iff]
        rcases fits.sized with small | single
        · exact .inr (decide_eq_false (Nat.not_lt.mpr small))
        · exact .inl (by simp [single])
      have recorded := record_data_ok (boundContext tables key budget row) ⟨rfl, rfl⟩ _
        (spec.outputBytes (emittedRows spec tables budget row chunk ordinal)) chunk.chunkLsn
        (emittedRows spec tables budget row chunk ordinal) (data emitted) (Nat.pos_of_ne_zero length)
        (output_bytes_positive spec _ (present emitted))
      simp only [length, withinTarget, if_false, Bool.false_eq_true, ok_bind, transformed, emitted, if_true, dataOutput]
      exact bind_ok_iff.mpr ⟨_, recorded, rfl⟩

end Chunk

section Continuation

variable (context : ScanContext Row Out) (bound : context.continuationPresence = some context.tables.continuation.isSome)

include bound

theorem replace_scan_ok (next : ScanContinuation) (valid : validateScanContinuation next = .ok ()) :
    replaceScanContinuation context context.tables.continuation next = .ok (context.withContinuation (some next)) := by
  unfold replaceScanContinuation
  rw [valid, ok_bind]
  exact replace_continuation_ok context (some next) "Scan" bound

end Continuation

section Finish

variable (spec : ScanSpec Row Out) (key : ConsumerKey) (tables : ScanTables Row Out) (row : StreamConsumer)
  (good : ScanInvariant spec key tables) (found : tables.input.stream.findConsumer key = some row)

include good

theorem produced_upto {a b : EffectChunk Row} (aMember : a ∈ tables.input.produced) (bMember : b ∈ tables.input.produced)
    (order : a.chunkSeq ≤ b.chunkSeq) : a.chunkLsn ≤ b.chunkLsn := by
  obtain ⟨slotGeneration, producer⟩ := good.source
  rcases Nat.lt_or_eq_of_le order with before | same
  · have ordered := good.input.produced.ordered a aMember b bMember before
    simpa only [ChunkOrder, producer] using ordered
  · have keys : (tables.input.produced.map EffectChunk.chunkSeq).Nodup := by
      rw [good.input.produced.numbered]
      exact List.nodup_range'
    rw [List.inj_on_of_nodup_map keys aMember bMember same]

include found

-- A cursor without a stored chunk stands at the end of the stream.
theorem nothing_produced (next : Nat) (onward : row.nextChunkSeq ≤ next)
    (missing : tables.input.stream.chunks.find? (fun chunk => chunk.chunkSeq = next) = none)
    (chunk : EffectChunk Row) (produced : chunk ∈ tables.input.produced) : ¬ next ≤ chunk.chunkSeq := by
  intro ahead
  have first := (row_phase spec key tables row good found).1
  have inRange : chunk.chunkSeq ∈ tables.input.produced.map EffectChunk.chunkSeq := List.mem_map_of_mem produced
  rw [good.input.produced.numbered, List.mem_range'_1] at inRange
  have present : next ∈ tables.input.produced.map EffectChunk.chunkSeq := by
    rw [good.input.produced.numbered, List.mem_range'_1]
    omega
  obtain ⟨other, otherProduced, isNext⟩ := List.mem_map.mp present
  have stored := (row_consumer spec key tables row good found).retained other otherProduced (isNext ▸ onward)
  have absent := List.find?_eq_none.mp missing other stored
  simp [isNext] at absent

-- The frontier a finished chunk leaves to reach, as Scan chooses it.
def savedFrontier (tables : ScanTables Row Out) (row : StreamConsumer) (next : Nat) : Option Lsn :=
  (tables.input.published.filter fun frontier => decide (row.consumedFrontierLsn < frontier)).filter fun frontier =>
    (tables.input.stream.chunks.find? fun chunk => chunk.chunkSeq = next).all fun chunk => decide (frontier < chunk.chunkLsn)

omit found in
theorem chunk_at_ok {sequence : Nat} (positive : 0 < sequence) : chunkAt tables.input sequence =
    .ok (tables.input.stream.chunks.find? fun chunk => chunk.chunkSeq = sequence) := by
  unfold chunkAt
  simp only [Nat.ne_of_gt positive, decide_false, refuse, Bool.false_eq_true, if_false, ok_bind]
  cases isChunk : tables.input.stream.chunks.find? fun chunk => chunk.chunkSeq = sequence with
  | none => rfl
  | some chunk =>
      obtain ⟨produced, isData⟩ := stored_data spec key tables good (List.mem_of_find?_eq_some isChunk)
      have counted := good.counted chunk produced
      have rows : ¬ chunk.rowCount = 0 := by
        rw [counted.rows]
        simpa using counted.present
      have bytes : ¬ chunk.payloadBytes = 0 := by
        rw [counted.bytes]
        exact Nat.ne_of_gt (source_bytes_positive spec _ counted.present)
      simp only [isData, rows, bytes, decide_false, Bool.or_self, Bool.false_eq_true, if_false, ok_bind]
      rfl

omit found in
theorem source_frontier_ok {context : ScanContext Row Out} (chunk : EffectChunk Row)
    (sameInput : context.tables.input = tables.input) (sameState : context.input = inputState tables.input row) :
    sourceFrontierAfterChunk context chunk = .ok (savedFrontier tables row (chunk.chunkSeq + 1)) := by
  have available : availableFrontier context =
      tables.input.published.filter fun frontier => decide (row.consumedFrontierLsn < frontier) := by
    unfold availableFrontier
    rw [sameState]
    simp [inputState, input_is_source spec key tables good]
  unfold sourceFrontierAfterChunk savedFrontier
  rw [available, sameInput]
  cases tables.input.published.filter fun frontier => decide (row.consumedFrontierLsn < frontier) with
  | none => rfl
  | some frontier =>
      rw [Option.filter_some]
      simp only [chunk_at_ok spec key tables good (Nat.succ_pos _), ok_bind]
      rfl

end Finish

section Transform

variable (spec : ScanSpec Row Out) (key : ConsumerKey) (tables : ScanTables Row Out) (budget : WorkBudget)
  (row : StreamConsumer) (chunk : EffectChunk Row) (ordinal : Nat)

-- What a transform keeps of the context it started from.
structure Started (tables : ScanTables Row Out) (key : ConsumerKey) (budget : WorkBudget) (row : StreamConsumer)
    (context : ScanContext Row Out) : Prop where
  sameTables : context.tables = tables
  sameKey : context.key = key
  sameBudget : context.budget = budget
  sameInput : context.input = inputState tables.input row
  bound : context.continuationPresence = some tables.continuation.isSome
  frontier : context.frontierOutput = none
  expected : context.expectedRevision = tables.revision

theorem transformed_started : Started tables key budget row (transformed spec tables key budget row chunk ordinal) := by
  unfold transformed
  split
  · exact ⟨rfl, rfl, rfl, rfl, rfl, rfl, rfl⟩
  · exact ⟨rfl, rfl, rfl, rfl, rfl, rfl, rfl⟩

theorem transformed_facts : (transformed spec tables key budget row chunk ordinal).outputFacts =
    dataOutput tables row chunk := by
  unfold transformed dataOutput
  split
  · rfl
  · rfl

-- A chunk that is done leaves no cursor, and the frontier it found to reach.
def finished (context : ScanContext Row Out) (streamId : Nat) (saved : Option Lsn) : ScanContext Row Out :=
  match saved with
  | none => context.withContinuation none
  | some frontier => (context.withContinuation none).withContinuation (some (frontierContinuation streamId frontier))

theorem finished_started (context : ScanContext Row Out) (streamId : Nat) (saved : Option Lsn) :
    (finished context streamId saved).tables =
        { context.tables with continuation := saved.map (frontierContinuation streamId) } ∧
      (finished context streamId saved).continuationPresence = some saved.isSome ∧
      (saved.isSome = true → (finished context streamId saved).continuationChanged = true) ∧
      (finished context streamId saved).key = context.key ∧ (finished context streamId saved).budget = context.budget ∧
      (finished context streamId saved).input = context.input ∧
      (finished context streamId saved).output = context.output ∧
      (finished context streamId saved).frontierOutput = context.frontierOutput ∧
      (finished context streamId saved).expectedRevision = context.expectedRevision := by
  cases saved with
  | none => exact ⟨rfl, rfl, (fun wrong => by cases wrong), rfl, rfl, rfl, rfl, rfl, rfl⟩
  | some frontier => exact ⟨rfl, rfl, (fun _ => by simp [finished, withContinuation]), rfl, rfl, rfl, rfl, rfl, rfl⟩

variable (good : ScanInvariant spec key tables) (found : tables.input.stream.findConsumer key = some row)
  (stored : chunk ∈ tables.input.stream.chunks) (atCursor : chunk.chunkSeq = row.nextChunkSeq)
  (cursor : tables.continuation = dataCursor tables.input.stream.streamId row.nextChunkSeq ordinal)
  (context : ScanContext Row Out) (started : Started tables key budget row context)

include good found atCursor cursor started

theorem finish_inside (nextRow : Nat) (inside : nextRow < chunk.rowCount) :
    finishTransform context tables.continuation.isSome chunk ordinal nextRow =
      .ok (context.withContinuation (some (dataContinuation tables.input.stream.streamId row.nextChunkSeq nextRow))) := by
  have sameStream : context.input.streamId = tables.input.stream.streamId := by rw [started.sameInput]; rfl
  have saved : (if tables.continuation.isSome = true then
      some (dataContinuation tables.input.stream.streamId row.nextChunkSeq ordinal) else none) =
      context.tables.continuation := by
    rw [started.sameTables, cursor]
    unfold dataCursor
    split
    · rfl
    · rfl
  have valid := data_continuation_valid nextRow good.streamId (row_phase spec key tables row good found).1
  have bound : context.continuationPresence = some context.tables.continuation.isSome := by
    rw [started.bound, started.sameTables]
  unfold finishTransform
  rw [if_pos inside, sameStream, atCursor, saved]
  exact replace_scan_ok context bound _ valid

include stored

omit cursor in
theorem finished_advance (saved : Option Lsn)
    (causal : frontierFault tables.input.stream tables.input.published row
      (moveOf row (row.nextChunkSeq + 1) row.consumedFrontierLsn ⟨chunk.rowCount, chunk.payloadBytes, 0, 0⟩) = none) :
    (finished context tables.input.stream.streamId saved).advanceInput (row.nextChunkSeq + 1) row.consumedFrontierLsn
        ⟨chunk.rowCount, chunk.payloadBytes, 0, 0⟩ =
      .ok ((finished context tables.input.stream.streamId saved).inputMoved
        (movedStream tables key row (row.nextChunkSeq + 1) row.consumedFrontierLsn
          ⟨chunk.rowCount, chunk.payloadBytes, 0, 0⟩)) := by
  obtain ⟨sameTables, _, _, sameKey, _, sameInput, _⟩ :=
    finished_started context tables.input.stream.streamId saved
  have input : (finished context tables.input.stream.streamId saved).tables.input = tables.input := by
    rw [sameTables, started.sameTables]
  have isKey : (finished context tables.input.stream.streamId saved).key = key := sameKey.trans started.sameKey
  have isInput := sameInput.trans started.sameInput
  have fits := chunk_move_fits good.input (row_phase spec key tables row good found).1 chunk stored atCursor _
    (Nat.le_refl _)
  have advanced := advance_input_ok (finished context tables.input.stream.streamId saved) row (by rw [input, isKey, found])
    (by rw [isInput]; rfl) (by rw [isInput]; rfl) (row.nextChunkSeq + 1) row.consumedFrontierLsn
    ⟨chunk.rowCount, chunk.payloadBytes, 0, 0⟩
    (by rw [input]; exact fits) (by rw [input]; exact causal)
  rw [input, isKey] at advanced
  exact advanced

omit found cursor stored in
-- A finished chunk clears its cursor, saves the frontier it found and moves on.
theorem finish_whole_moves : finishTransform context tables.continuation.isSome chunk ordinal chunk.rowCount =
      (finished context tables.input.stream.streamId (savedFrontier tables row (row.nextChunkSeq + 1))).advanceInput
        (row.nextChunkSeq + 1) row.consumedFrontierLsn ⟨chunk.rowCount, chunk.payloadBytes, 0, 0⟩ := by
  have sameStream : context.input.streamId = tables.input.stream.streamId := by rw [started.sameInput]; rfl
  have bound : context.continuationPresence = some context.tables.continuation.isSome := by
    rw [started.bound, started.sameTables]
  have deleted : deleteContinuation context _ = _ := delete_stored_ok context "linear" bound
  rw [started.sameTables] at deleted
  have input : (context.withContinuation none).tables.input = tables.input := by
    change context.tables.input = tables.input
    rw [started.sameTables]
  have chosen := source_frontier_ok spec key tables row good chunk input started.sameInput
  rw [atCursor] at chosen
  have consumed : ∀ saved, (finished context tables.input.stream.streamId saved).input.consumedFrontierLsn =
      row.consumedFrontierLsn := by
    intro saved
    obtain ⟨_, _, _, _, _, sameInput, _⟩ := finished_started context tables.input.stream.streamId saved
    rw [sameInput, started.sameInput]
    rfl
  unfold finishTransform
  simp only [Nat.lt_irrefl, if_false, if_true, deleted, ok_bind, chosen, sameStream, atCursor]
  cases savedFrontier tables row (row.nextChunkSeq + 1) with
  | none =>
      have level : (context.withContinuation none).input.consumedFrontierLsn = row.consumedFrontierLsn := consumed none
      simp only [level]
      rfl
  | some frontier =>
      have replaced := replace_scan_ok (context.withContinuation none) rfl
        (frontierContinuation tables.input.stream.streamId frontier)
        (frontier_continuation_valid _ _ good.streamId)
      have unsaved : (context.withContinuation none).tables.continuation = none := rfl
      have level : ((context.withContinuation none).withContinuation
          (some (frontierContinuation tables.input.stream.streamId frontier))).input.consumedFrontierLsn =
        row.consumedFrontierLsn := consumed (some frontier)
      rw [unsaved] at replaced
      simp only [replaced, ok_bind, level]
      rfl

omit cursor in
theorem finish_whole (causal : frontierFault tables.input.stream tables.input.published row
      (moveOf row (row.nextChunkSeq + 1) row.consumedFrontierLsn ⟨chunk.rowCount, chunk.payloadBytes, 0, 0⟩) = none) :
    finishTransform context tables.continuation.isSome chunk ordinal chunk.rowCount =
      .ok ((finished context tables.input.stream.streamId (savedFrontier tables row (row.nextChunkSeq + 1))).inputMoved
        (movedStream tables key row (row.nextChunkSeq + 1) row.consumedFrontierLsn
          ⟨chunk.rowCount, chunk.payloadBytes, 0, 0⟩)) := by
  rw [finish_whole_moves spec key tables budget row chunk ordinal good atCursor context started]
  exact finished_advance spec key tables budget row chunk good found stored atCursor context started _ causal

omit cursor stored in
theorem finish_whole_causal (after : ScanContext Row Out)
    (finish : finishTransform context tables.continuation.isSome chunk ordinal chunk.rowCount = .ok after) :
    frontierFault tables.input.stream tables.input.published row
      (moveOf row (row.nextChunkSeq + 1) row.consumedFrontierLsn ⟨chunk.rowCount, chunk.payloadBytes, 0, 0⟩) = none := by
  rw [finish_whole_moves spec key tables budget row chunk ordinal good atCursor context started] at finish
  obtain ⟨sameTables, _, _, sameKey, _, sameInput, _⟩ :=
    finished_started context tables.input.stream.streamId (savedFrontier tables row (row.nextChunkSeq + 1))
  have input : (finished context tables.input.stream.streamId
      (savedFrontier tables row (row.nextChunkSeq + 1))).tables.input = tables.input := by
    rw [sameTables, started.sameTables]
  have isInput := sameInput.trans started.sameInput
  have causal := advance_input_causal _ row (by rw [input, sameKey.trans started.sameKey, found]) (by rw [isInput]; rfl)
    (by rw [isInput]; rfl) _ _ _ after finish
  rw [input] at causal
  exact causal

end Transform

section Goes

variable (spec : ScanSpec Row Out) (key : ConsumerKey) (tables : ScanTables Row Out) (budget : WorkBudget)
  (row : StreamConsumer) (chunk : EffectChunk Row) (ordinal : Nat) (good : ScanInvariant spec key tables)
  (found : tables.input.stream.findConsumer key = some row)
  (isChunk : tables.input.stream.chunks.find? (fun chunk => chunk.chunkSeq = row.nextChunkSeq) = some chunk)
  (cursor : tables.continuation = dataCursor tables.input.stream.streamId row.nextChunkSeq ordinal)
  (inside : ordinal < chunk.rowCount) (flowing : tables.output.stream.backpressured = false)
  (data : emits row chunk = true → DataFits tables.output.stream chunk.chunkLsn)

theorem chunk_found {stream : EffectStream Row} {next : Nat}
    (isChunk : stream.chunks.find? (fun chunk => chunk.chunkSeq = next) = some chunk) :
    chunk ∈ stream.chunks ∧ chunk.chunkSeq = next :=
  ⟨List.mem_of_find?_eq_some isChunk, by simpa using List.find?_some isChunk⟩

include good found isChunk cursor

theorem execute_chunk : executeScan spec (startContext tables key budget row) =
    stepDataTransform spec (boundContext tables key budget row) tables.continuation.isSome chunk ordinal := by
  obtain ⟨stored, atCursor⟩ := chunk_found chunk isChunk
  have first := (row_phase spec key tables row good found).1
  have isData := (stored_data spec key tables good stored).2
  have reads := chunk_at_ok spec key tables good first
  rw [isChunk] at reads
  have sameNext : (boundContext tables key budget row).input.nextChunkSeq = row.nextChunkSeq := rfl
  have sameInput : (boundContext tables key budget row).tables.input = tables.input := rfl
  by_cases start : ordinal = 0
  · have fresh : tables.continuation = none := by rw [cursor, dataCursor, if_pos start]
    rw [execute_fresh spec key tables budget row good fresh, fresh]
    simp only [stepNextChunk, sameNext, sameInput, reads, ok_bind, isData, refuse, start]
    rfl
  · have saved : tables.continuation = some (dataContinuation tables.input.stream.streamId row.nextChunkSeq ordinal) := by
      rw [cursor, dataCursor, if_neg start]
    rw [execute_saved spec key tables budget row good _ saved rfl (data_continuation_valid _ good.streamId first), saved]
    simp only [stepSaved, dataContinuation, stepNextChunk, sameNext, sameInput, reads, ok_bind, isData, refuse,
      Option.any_some, atCursor, ne_eq, not_true_eq_false, decide_false, Bool.false_eq_true, if_false]
    rfl

include inside data

omit found cursor in
theorem step_data_ok (context : ScanContext Row Out)
    (finish : finishTransform (transformed spec tables key budget row chunk ordinal) tables.continuation.isSome chunk ordinal
      (ordinal + (dataPage spec tables budget row chunk ordinal).length) = .ok context) :
    stepDataTransform spec (boundContext tables key budget row) tables.continuation.isSome chunk ordinal =
      context.transitionFacts .process
        { usage := dataUsage spec tables budget row chunk ordinal, output := dataOutput tables row chunk } := by
  obtain ⟨stored, atCursor⟩ := chunk_found chunk isChunk
  have counted := good.counted chunk (stored_data spec key tables good stored).1
  have taken := data_page_taken budget row counted inside good.output.target
  have run := run_transform_ok key budget row counted inside good.output.target data
  have sameNext : (boundContext tables key budget row).input.nextChunkSeq = row.nextChunkSeq := rfl
  have sameActivation : (boundContext tables key budget row).input.activationLsn = row.activationLsn := rfl
  have emitRows : decide (row.activationLsn < chunk.chunkLsn) = emits row chunk := rfl
  have whole : payloadFacts spec (boundContext tables key budget row).input.streamId chunk = .ok () := by
    simp [payloadFacts, counted.rows, counted.bytes, refuse]
  have length := List.length_pos_iff.mpr taken.some
  have last : ordinal + (dataPage spec tables budget row chunk ordinal).length - 1 + 1 =
      ordinal + (dataPage spec tables budget row chunk ordinal).length := by omega
  unfold stepDataTransform
  simp only [Nat.not_le.mpr inside, decide_false, sameNext, atCursor, whole, sameActivation, emitRows, run, refuse, ok_bind,
    ne_eq, not_true_eq_false, Bool.false_eq_true, if_false, last, finish]
  split
  · rfl
  · rfl

-- The output once the page of the step is published.
def writtenOutput (spec : ScanSpec Row Out) (tables : ScanTables Row Out) (budget : WorkBudget) (row : StreamConsumer)
    (chunk : EffectChunk Row) (ordinal : Nat) : StreamHistory Out :=
  if emits row chunk then
    appendedHistory tables.output .data (emittedRows spec tables budget row chunk ordinal).length
      (spec.outputBytes (emittedRows spec tables budget row chunk ordinal)) chunk.chunkLsn
      (emittedRows spec tables budget row chunk ordinal)
  else tables.output

omit good found isChunk cursor inside data in
theorem written_published (context : ScanContext Row Out)
    (sameOutput : context.output = (transformed spec tables key budget row chunk ordinal).output)
    (sameHistory : context.tables.output = tables.output) : context.publishedTables =
      { context.tables with output := writtenOutput spec tables budget row chunk ordinal } := by
  unfold publishedTables writtenOutput
  rw [sameOutput, sameHistory]
  cases emitted : emits row chunk with
  | true =>
      simp only [transformed, emitted, if_true]
      rfl
  | false =>
      simp only [transformed, emitted, Bool.false_eq_true, if_false]
      rw [← sameHistory]
      rfl

include flowing

omit found cursor in
theorem written_fits (context : ScanContext Row Out)
    (sameOutput : context.output = (transformed spec tables key budget row chunk ordinal).output)
    (sameHistory : context.tables.output = tables.output) : PendingFits context := by
  obtain ⟨stored, atCursor⟩ := chunk_found chunk isChunk
  have counted := good.counted chunk (stored_data spec key tables good stored).1
  have taken := data_page_taken budget row counted inside good.output.target
  intro pending isPending
  rw [sameOutput] at isPending
  cases emitted : emits row chunk with
  | false =>
      simp only [transformed, emitted, Bool.false_eq_true, if_false] at isPending
      cases isPending
  | true =>
      simp only [transformed, emitted, if_true] at isPending
      obtain rfl := Option.some.inj isPending
      have fits := taken.output emitted
      have isEmitted : (dataPage spec tables budget row chunk ordinal).map spec.emit =
          emittedRows spec tables budget row chunk ordinal := by simp [emittedRows, emitted]
      have present := emitted_present budget row counted inside good.output.target emitted
      rw [isEmitted] at fits
      rw [sameHistory]
      exact ⟨output_ready spec key tables good flowing, rfl, data emitted,
        page_resources _ _ _ (List.length_pos_iff.mpr present) (output_bytes_positive spec _ present)
          (Nat.le_trans fits.counted (Nat.min_le_right _ _))
          (fits.sized.imp (fun small => Nat.le_trans small (Nat.min_le_right _ _)) id)⟩

-- A data step commits once it knows how its chunk goes on.
theorem data_commits (context : ScanContext Row Out) (hasContinuation : Bool)
    (finish : finishTransform (transformed spec tables key budget row chunk ordinal) tables.continuation.isSome chunk ordinal
      (ordinal + (dataPage spec tables budget row chunk ordinal).length) = .ok context)
    (sameOutput : context.output = (transformed spec tables key budget row chunk ordinal).output)
    (sameHistory : context.tables.output = tables.output)
    (sameFrontier : context.frontierOutput = none) (sameBudget : context.budget = budget)
    (bound : context.continuationPresence = some hasContinuation)
    (progress : hasContinuation = true → context.continuationChanged = true)
    (expected : context.tables.revision = context.expectedRevision) :
    ∃ stepped, executeScan spec (startContext tables key budget row) =
        .ok (stepped, stepped.stepReceipt .process (dataUsage spec tables budget row chunk ordinal) hasContinuation) ∧
      stepped.Committable .process (dataUsage spec tables budget row chunk ordinal) hasContinuation ∧
      stepped.committedTables hasContinuation =
        { context.tables with
          output := writtenOutput spec tables budget row chunk ordinal
          revision := context.tables.revision + 1
          hasContinuation } := by
  obtain ⟨stored, atCursor⟩ := chunk_found chunk isChunk
  have counted := good.counted chunk (stored_data spec key tables good stored).1
  have valid := data_usage_valid budget row counted inside good.output.target
  have facts : context.outputFacts = dataOutput tables row chunk := by
    rw [← transformed_facts spec key tables budget row chunk ordinal]
    have none : (transformed spec tables key budget row chunk ordinal).frontierOutput = none :=
      (transformed_started spec key tables budget row chunk ordinal).frontier
    unfold StepContext.outputFacts
    rw [sameOutput, sameFrontier, none]
  have agrees : OutputAgrees .process (dataUsage spec tables budget row chunk ordinal) (dataOutput tables row chunk) := by
    cases emitted : emits row chunk with
    | false => simp [dataOutput, emitted, OutputAgrees, dataUsage, emittedRows]
    | true =>
        have present := emitted_present budget row counted inside good.output.target emitted
        simp [dataOutput, emitted, OutputAgrees, dataUsage, present]
  have isData : (dataOutput tables row chunk).isFrontier = false := by
    unfold dataOutput
    split
    · rfl
    · rfl
  have numbered : ∀ sequence, dataOutput tables row chunk = .data sequence → sequence ≠ 0 := by
    intro sequence same
    unfold dataOutput at same
    split at same
    · obtain rfl := OutputFacts.data.inj same
      exact Nat.ne_of_gt good.output.numbered
    · cases same
  have fits := written_fits spec key tables budget row chunk ordinal good isChunk inside flowing data context sameOutput
    sameHistory
  have within : (dataUsage spec tables budget row chunk ordinal).validate context.budget = .ok () := by
    rw [sameBudget]
    exact valid
  obtain ⟨moved, committable⟩ := process_commits context .process
    { usage := dataUsage spec tables budget row chunk ordinal, output := dataOutput tables row chunk } hasContinuation bound
    within progress facts agrees isData numbered fits expected
  have published := written_published spec key tables budget row chunk ordinal context sameOutput sameHistory
  have committed : (context.withStateRows 0).committedTables hasContinuation =
      { context.tables with
        output := writtenOutput spec tables budget row chunk ordinal
        revision := context.tables.revision + 1
        hasContinuation } := by
    have same : (context.withStateRows 0).publishedTables = context.publishedTables := rfl
    unfold committedTables
    rw [same, published]
    rfl
  refine ⟨_, ?_, committable, committed⟩
  rw [execute_chunk spec key tables budget row chunk ordinal good found isChunk cursor,
    step_data_ok spec key tables budget row chunk ordinal good isChunk inside data context finish]
  exact moved

omit good found isChunk cursor inside data flowing in
theorem written_same_frontier : (writtenOutput spec tables budget row chunk ordinal).stream.publishedFrontierLsn =
    tables.output.stream.publishedFrontierLsn := by
  unfold writtenOutput
  split
  · rfl
  · rfl

end Goes

section Live

variable (spec : ScanSpec Row Out) (key : ConsumerKey) (tables : ScanTables Row Out) (budget : WorkBudget)
  (row : StreamConsumer) (chunk : EffectChunk Row) (ordinal : Nat) (good : ScanInvariant spec key tables)
  (found : tables.input.stream.findConsumer key = some row) (live : Live tables row)
  (isChunk : tables.input.stream.chunks.find? (fun chunk => chunk.chunkSeq = row.nextChunkSeq) = some chunk)

include good found live isChunk

-- A chunk that is emitted follows everything the output holds.
theorem live_fits (numbers : tables.output.stream.nextChunkSeq ≠ bigintMax) (emitted : emits row chunk = true) :
    DataFits tables.output.stream chunk.chunkLsn := by
  obtain ⟨stored, atCursor⟩ := chunk_found chunk isChunk
  obtain ⟨produced, isData⟩ := stored_data spec key tables good stored
  have above : row.activationLsn < chunk.chunkLsn := of_decide_eq_true emitted
  have baseline := (row_phase spec key tables row good found).2.1
  refine ⟨numbers, ?_, ?_⟩
  · have beyond : row.consumedFrontierLsn < chunk.chunkLsn := by
      rcases Nat.lt_or_eq_of_le baseline with risen | level
      · exact ((row_consumer spec key tables row good found).complete risen).later chunk produced isData
          (Nat.le_of_eq atCursor.symm)
      · rw [← level]
        exact above
    rw [live.published]
    simpa using beyond
  · cases latest : tables.output.stream.latestDataLsn with
    | none => rfl
    | some lsn =>
        have covered : lsn ≤ chunk.chunkLsn := by
          rcases live.latest lsn latest with low | ⟨earlier, earlierProduced, reached, within⟩
          · exact Nat.le_trans low (Nat.le_of_lt above)
          · exact Nat.le_trans within (produced_upto spec key tables good earlierProduced produced (atCursor ▸ reached))
        simpa using covered

omit found in
-- What the written output holds comes from the chunks up to this one.
theorem written_latest (lsn : Lsn)
    (isLatest : (writtenOutput spec tables budget row chunk ordinal).stream.latestDataLsn = some lsn) :
    lsn ≤ row.activationLsn ∨ ∃ chunk ∈ tables.input.produced, chunk.chunkSeq ≤ row.nextChunkSeq ∧ lsn ≤ chunk.chunkLsn := by
  obtain ⟨stored, atCursor⟩ := chunk_found chunk isChunk
  obtain ⟨produced, isData⟩ := stored_data spec key tables good stored
  unfold writtenOutput at isLatest
  split at isLatest
  · obtain rfl := Option.some.inj isLatest
    rcases greatest_lsn_cases tables.output.stream.latestDataLsn chunk.chunkLsn with same | earlier
    · exact .inr ⟨chunk, produced, Nat.le_of_eq atCursor, Nat.le_of_eq same⟩
    · exact live.latest _ earlier
  · exact live.latest lsn isLatest

omit found live isChunk in
theorem written_shape : OutputShape (writtenOutput spec tables budget row chunk ordinal).stream := by
  unfold writtenOutput
  split
  · exact output_shape_appended good.output .data _ _ _ _
  · exact good.output

omit good found isChunk in
theorem written_frontier : (writtenOutput spec tables budget row chunk ordinal).stream.publishedFrontierLsn =
    some row.consumedFrontierLsn :=
  (written_same_frontier spec tables budget row chunk ordinal).trans live.published

variable (cursor : tables.continuation = dataCursor tables.input.stream.streamId row.nextChunkSeq ordinal)
  (inside : ordinal < chunk.rowCount) (flowing : tables.output.stream.backpressured = false)
  (numbers : emits row chunk = true → tables.output.stream.nextChunkSeq ≠ bigintMax)

include cursor inside flowing numbers

theorem chunk_inside_goes
    (more : ordinal + (dataPage spec tables budget row chunk ordinal).length < chunk.rowCount) :
    Goes spec key tables budget row := by
  obtain ⟨stored, atCursor⟩ := chunk_found chunk isChunk
  obtain ⟨produced, _⟩ := stored_data spec key tables good stored
  have taken := data_page_taken budget row (good.counted chunk produced) inside good.output.target
  have length := List.length_pos_iff.mpr taken.some
  have started := transformed_started spec key tables budget row chunk ordinal
  have data := fun emitted => live_fits spec key tables row chunk good found live isChunk (numbers emitted) emitted
  have finish := finish_inside spec key tables budget row chunk ordinal good found atCursor cursor _ started _ more
  obtain ⟨first, baseline, _⟩ := row_phase spec key tables row good found
  obtain ⟨member, named⟩ := found_consumer tables.input key row found
  have sameHistory := congrArg StageTables.output started.sameTables
  have sameRevision := (congrArg StageTables.revision started.sameTables).trans started.expected.symm
  obtain ⟨stepped, executed, committable, committed⟩ := data_commits spec key tables budget row chunk ordinal good found
    isChunk cursor inside flowing data _ true finish rfl sameHistory started.frontier started.sameBudget rfl
    (fun _ => by simp [withContinuation]) sameRevision
  refine ⟨stepped, .process, _, true, executed, by simp, committable, ?_, fun frontier published => .inl ?_⟩
  · rw [committed]
    simp only [withContinuation, started.sameTables]
    refine ⟨good.input, good.source, good.streamId, good.counted,
      written_shape spec key tables budget row chunk ordinal good, rfl, row, member, named, first, baseline, ?_⟩
    apply PhaseInvariant.data
    · exact ⟨written_frontier spec tables budget row chunk ordinal live,
        written_latest spec key tables budget row chunk ordinal good live isChunk⟩
    · exact produced
    · exact atCursor
    · omega
    · exact more
  · rw [committed] at published
    exact (written_same_frontier spec tables budget row chunk ordinal).symm.trans published

omit found live isChunk cursor inside flowing numbers in
-- The cursor may leave a chunk unless the next one lies at or below its frontier.
theorem leave_causal (usage : WorkUsage) : frontierFault tables.input.stream tables.input.published row
      (moveOf row (row.nextChunkSeq + 1) row.consumedFrontierLsn usage) = none ↔
    ∀ lsn, nextUnconsumedLsn tables.input.stream (row.nextChunkSeq + 1) = some lsn → row.consumedFrontierLsn < lsn := by
  obtain ⟨slotGeneration, producer⟩ := good.source
  simp only [frontierFault, producer, moveOf, Nat.lt_irrefl, false_and, if_false]
  cases isNext : nextUnconsumedLsn tables.input.stream (row.nextChunkSeq + 1) with
  | none => simp
  | some lsn =>
      by_cases low : lsn ≤ row.consumedFrontierLsn
      · simp [low]
      · simp [low, Nat.lt_of_not_le low]

omit live isChunk cursor inside flowing numbers in
-- A saved frontier is complete behind the finished chunk.
theorem saved_passed (frontier : Lsn) (saved : savedFrontier tables row (row.nextChunkSeq + 1) = some frontier) :
    tables.input.published = some frontier ∧ row.consumedFrontierLsn < frontier ∧
      Passed tables.input (row.nextChunkSeq + 1) frontier := by
  obtain ⟨slotGeneration, producer⟩ := good.source
  simp only [savedFrontier, Option.filter_eq_some_iff, decide_eq_true_eq] at saved
  obtain ⟨⟨published, risen⟩, beyond⟩ := saved
  refine ⟨published, risen, ?_, ?_⟩
  · intro chunk produced _ ahead
    cases isNext : tables.input.stream.chunks.find? fun chunk => chunk.chunkSeq = row.nextChunkSeq + 1 with
    | none => exact absurd ahead (nothing_produced spec key tables row good found _ (Nat.le_succ _) isNext chunk produced)
    | some next =>
        obtain ⟨stored, isSeq⟩ := chunk_found next isNext
        have nextProduced := (stored_data spec key tables good stored).1
        rw [isNext] at beyond
        exact Nat.lt_of_lt_of_le (of_decide_eq_true beyond)
          (produced_upto spec key tables good nextProduced produced (isSeq ▸ ahead))
  · simp [closedThrough, producer, published]

omit found cursor inside flowing numbers in
-- The output of a finished chunk stays below a frontier that covers the chunk.
theorem written_covers (frontier : Lsn) (baseline : row.activationLsn ≤ frontier)
    (covers : emits row chunk = true → chunk.chunkLsn ≤ frontier) :
    behind (writtenOutput spec tables budget row chunk ordinal).stream.latestDataLsn frontier = false := by
  obtain ⟨stored, atCursor⟩ := chunk_found chunk isChunk
  obtain ⟨produced, _⟩ := stored_data spec key tables good stored
  have reached : chunk.chunkLsn ≤ frontier := by
    by_cases emitted : emits row chunk = true
    · exact covers emitted
    · have low := of_decide_eq_false (Bool.eq_false_iff.mpr emitted)
      exact Nat.le_trans (Nat.le_of_not_lt low) baseline
  cases latest : (writtenOutput spec tables budget row chunk ordinal).stream.latestDataLsn with
  | none => rfl
  | some lsn =>
      have within : lsn ≤ frontier := by
        rcases written_latest spec key tables budget row chunk ordinal good live isChunk lsn latest with
          low | ⟨earlier, earlierProduced, order, under⟩
        · exact Nat.le_trans low baseline
        · exact Nat.le_trans under (Nat.le_trans
            (produced_upto spec key tables good earlierProduced produced (atCursor ▸ order)) reached)
      simpa using within

-- The stage once a chunk is done.
def afterChunk (spec : ScanSpec Row Out) (key : ConsumerKey) (tables : ScanTables Row Out) (budget : WorkBudget)
    (row : StreamConsumer) (chunk : EffectChunk Row) (ordinal : Nat) : ScanTables Row Out where
  input :=
    { tables.input with
      stream := movedStream tables key row (row.nextChunkSeq + 1) row.consumedFrontierLsn
        ⟨chunk.rowCount, chunk.payloadBytes, 0, 0⟩ }
  output := writtenOutput spec tables budget row chunk ordinal
  revision := tables.revision + 1
  hasContinuation := (savedFrontier tables row (row.nextChunkSeq + 1)).isSome
  continuation :=
    (savedFrontier tables row (row.nextChunkSeq + 1)).map (frontierContinuation tables.input.stream.streamId)
  state := tables.state

variable (whole : ordinal + (dataPage spec tables budget row chunk ordinal).length = chunk.rowCount)
  (leaves : ∀ lsn, nextUnconsumedLsn tables.input.stream (row.nextChunkSeq + 1) = some lsn → row.consumedFrontierLsn < lsn)

include whole leaves

theorem chunk_whole_commits : ∃ stepped, executeScan spec (startContext tables key budget row) =
        .ok (stepped, stepped.stepReceipt .process (dataUsage spec tables budget row chunk ordinal)
          (savedFrontier tables row (row.nextChunkSeq + 1)).isSome) ∧
      stepped.Committable .process (dataUsage spec tables budget row chunk ordinal)
        (savedFrontier tables row (row.nextChunkSeq + 1)).isSome ∧
      stepped.committedTables (savedFrontier tables row (row.nextChunkSeq + 1)).isSome =
        afterChunk spec key tables budget row chunk ordinal := by
  obtain ⟨stored, atCursor⟩ := chunk_found chunk isChunk
  have started := transformed_started spec key tables budget row chunk ordinal
  have data := fun emitted => live_fits spec key tables row chunk good found live isChunk (numbers emitted) emitted
  have causal := (leave_causal spec key tables row good ⟨chunk.rowCount, chunk.payloadBytes, 0, 0⟩).mpr leaves
  have finish := finish_whole spec key tables budget row chunk ordinal good found stored atCursor _ started causal
  rw [← whole] at finish
  obtain ⟨sameTables, bound, progress, _, sameBudget, _, sameOutput, sameFrontier, sameExpected⟩ :=
    finished_started (transformed spec tables key budget row chunk ordinal) tables.input.stream.streamId
      (savedFrontier tables row (row.nextChunkSeq + 1))
  rw [started.sameTables] at sameTables
  have sameHistory := congrArg StageTables.output sameTables
  have sameRevision := (congrArg StageTables.revision sameTables).trans (started.expected.symm.trans sameExpected.symm)
  obtain ⟨stepped, executed, committable, committed⟩ := data_commits spec key tables budget row chunk ordinal good found
    isChunk cursor inside flowing data _ _ finish sameOutput sameHistory (sameFrontier.trans started.frontier)
    (sameBudget.trans started.sameBudget) bound progress sameRevision
  refine ⟨stepped, executed, committable, ?_⟩
  rw [committed]
  simp only [inputMoved, sameTables, whole]
  rfl

variable
  (covers : emits row chunk = true → ∀ frontier, tables.input.published = some frontier → row.consumedFrontierLsn < frontier → chunk.chunkLsn ≤ frontier)

include covers

omit cursor inside flowing numbers whole in
theorem after_chunk_invariant :
    ScanInvariant spec key (afterChunk spec key tables budget row chunk ordinal) := by
  obtain ⟨stored, atCursor⟩ := chunk_found chunk isChunk
  obtain ⟨first, baseline, _⟩ := row_phase spec key tables row good found
  obtain ⟨member, named⟩ := found_consumer tables.input key row found
  have causal := (leave_causal spec key tables row good ⟨chunk.rowCount, chunk.payloadBytes, 0, 0⟩).mpr leaves
  have moved := moved_row key tables row found (row.nextChunkSeq + 1) row.consumedFrontierLsn
    ⟨chunk.rowCount, chunk.payloadBytes, 0, 0⟩
  have input := moved_invariant spec key tables row good found (row.nextChunkSeq + 1) row.consumedFrontierLsn
    ⟨chunk.rowCount, chunk.payloadBytes, 0, 0⟩ (chunk_move_fits good.input
      (row_phase spec key tables row good found).1 chunk stored atCursor _ (Nat.le_refl _)) causal
  have latest : ∀ lsn, (writtenOutput spec tables budget row chunk ordinal).stream.latestDataLsn = some lsn →
      lsn ≤ row.activationLsn ∨ ∃ chunk ∈ tables.input.produced, chunk.chunkSeq ≤ row.nextChunkSeq + 1 ∧
        lsn ≤ chunk.chunkLsn := by
    intro lsn isLatest
    refine (written_latest spec key tables budget row chunk ordinal good live isChunk lsn isLatest).imp id ?_
    rintro ⟨earlier, produced, order, under⟩
    exact ⟨earlier, produced, Nat.le_succ_of_le order, under⟩
  refine ⟨input, good.source, good.streamId, good.counted,
    written_shape spec key tables budget row chunk ordinal good, ?_, _, moved, named, Nat.le_succ_of_le first, baseline, ?_⟩
  · unfold afterChunk
    cases savedFrontier tables row (row.nextChunkSeq + 1) <;> rfl
  · unfold afterChunk
    cases saved : savedFrontier tables row (row.nextChunkSeq + 1) with
    | none =>
        apply PhaseInvariant.idle
        exact ⟨written_frontier spec tables budget row chunk ordinal live, latest⟩
    | some frontier =>
        obtain ⟨published, risen, passed⟩ := saved_passed spec key tables row good found frontier saved
        apply PhaseInvariant.sourceFrontier
        exact ⟨⟨written_frontier spec tables budget row chunk ordinal live, latest⟩, risen, ⟨passed.later, passed.closed⟩,
          written_covers spec key tables budget row chunk ordinal good live isChunk frontier
            (Nat.le_trans baseline (Nat.le_of_lt risen)) fun emitted => covers emitted frontier published risen⟩

theorem chunk_whole_goes : Goes spec key tables budget row := by
  obtain ⟨stepped, executed, committable, committed⟩ := chunk_whole_commits spec key tables budget row chunk ordinal good
    found live isChunk cursor inside flowing numbers whole leaves
  refine ⟨stepped, .process, _, _, executed, by simp, committable, ?_, fun frontier published => .inl ?_⟩
  · rw [committed]
    exact after_chunk_invariant spec key tables budget row chunk ordinal good found live isChunk leaves covers
  · rw [committed] at published
    exact (written_same_frontier spec tables budget row chunk ordinal).symm.trans published

end Live

end Shiba.Linear
