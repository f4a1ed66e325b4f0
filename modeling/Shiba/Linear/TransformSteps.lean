import Shiba.Linear.BootstrapSteps
import Shiba.Linear.TransformStage
import Shiba.Execution.Forward

set_option autoImplicit false

namespace Shiba.Linear.Transform

open Shiba.Stream Shiba.Execution Shiba.Execution.StepContext

variable {Row Out : Type}

theorem chunk_at_stored {spec : ScanSpec Row Out} {history : StreamHistory Row} (good : StreamInvariant history)
    {chunk : EffectChunk Row} (stored : chunk ∈ history.stream.chunks) (counted : StoredChunk spec chunk)
    (positive : 0 < chunk.chunkSeq) : chunkAt history chunk.chunkSeq = .ok (some chunk) := by
  unfold chunkAt
  simp only [Nat.ne_of_gt positive, decide_false, not_refused, ok_bind,
    stored_found good stored rfl]
  cases kind : chunk.chunkKind with
  | data =>
      have rows : ¬ chunk.rowCount = 0 := by
        rw [counted.rows]
        simpa using counted.present kind
      have bytes : ¬ chunk.payloadBytes = 0 := by
        rw [counted.bytes]
        exact Nat.ne_of_gt (source_bytes_positive spec _ (counted.present kind))
      simp only [rows, bytes, decide_false, Bool.or_self]
      rfl
  | frontier =>
      have rows : chunk.rowCount = 0 := by
        rw [counted.rows, counted.empty kind]
        rfl
      have bytes : chunk.payloadBytes = 0 := by
        rw [counted.bytes, counted.empty kind]
        rfl
      simp only [rows, bytes, ne_eq, not_true_eq_false, decide_false, Bool.or_self]
      rfl

section Continuation

variable (context : TransformContext Row Out)
  (bound : context.continuationPresence = some context.tables.continuation.isSome)

include bound

theorem replace_transform_ok (next : TransformContinuation) (stream : 0 < next.inputStreamId)
    (sequence : 0 < next.inputChunkSeq) :
    replaceTransformContinuation context context.tables.continuation next =
      .ok (context.withContinuation (some next)) := by
  unfold replaceTransformContinuation
  simp only [Nat.ne_of_gt stream, Nat.ne_of_gt sequence, decide_false, Bool.or_self, not_refused,
    ok_bind]
  exact replace_continuation_ok context (some next) "linear" bound

end Continuation

section Chunk

variable (spec : TransformSpec Row Out) (key : ConsumerKey) (tables : TransformTables Row Out) (budget : WorkBudget)
  (row : StreamConsumer) (chunk : EffectChunk Row) (ordinal : Nat)

-- The rows the step takes, and those of them it writes.
def page (spec : TransformSpec Row Out) (tables : TransformTables Row Out) (budget : WorkBudget) (chunk : EffectChunk Row)
    (ordinal : Nat) : List (EffectRow Row) :=
  selectedRows spec budget (outputState tables.output.stream) (chunk.payload.drop ordinal)

def emitted (spec : TransformSpec Row Out) (tables : TransformTables Row Out) (budget : WorkBudget)
    (chunk : EffectChunk Row) (ordinal : Nat) : List (EffectRow Out) := spec.image (page spec tables budget chunk ordinal)

def pageUsage (spec : TransformSpec Row Out) (tables : TransformTables Row Out) (budget : WorkBudget)
    (chunk : EffectChunk Row) (ordinal : Nat) : WorkUsage :=
  ⟨(page spec tables budget chunk ordinal).length, spec.scanPlaceholder.sourceBytes (page spec tables budget chunk ordinal),
    (emitted spec tables budget chunk ordinal).length,
    spec.scanPlaceholder.outputBytes (emitted spec tables budget chunk ordinal)⟩

def pageOutput (spec : TransformSpec Row Out) (tables : TransformTables Row Out) (budget : WorkBudget)
    (chunk : EffectChunk Row) (ordinal : Nat) : OutputFacts :=
  if (emitted spec tables budget chunk ordinal).length = 0 then .none else .data tables.output.stream.nextChunkSeq

-- The context once the page is in the output.
def transformed (spec : TransformSpec Row Out) (tables : TransformTables Row Out) (key : ConsumerKey) (budget : WorkBudget)
    (row : StreamConsumer) (chunk : EffectChunk Row) (ordinal : Nat) : TransformContext Row Out :=
  if (emitted spec tables budget chunk ordinal).length = 0 then boundStart tables key budget row
  else (boundStart tables key budget row).dataRecorded (emitted spec tables budget chunk ordinal).length
    (spec.scanPlaceholder.outputBytes (emitted spec tables budget chunk ordinal)) chunk.chunkLsn
    (emitted spec tables budget chunk ordinal)

variable (counted : StoredChunk spec.scanPlaceholder chunk) (inside : ordinal < chunk.rowCount)
  (target : 0 < tables.output.stream.targetChunkRows)

include counted inside target

theorem page_taken : PrefixTaken spec budget (outputState tables.output.stream) (chunk.payload.drop ordinal)
    (page spec tables budget chunk ordinal) := by
  apply selected_rows_taken
  · exact target
  · intro empty
    have short := List.drop_eq_nil_iff.mp empty
    rw [counted.rows] at inside
    omega

theorem page_length : 0 < (page spec tables budget chunk ordinal).length ∧
    ordinal + (page spec tables budget chunk ordinal).length ≤ chunk.rowCount := by
  have taken := page_taken spec tables budget chunk ordinal counted inside target
  refine ⟨List.length_pos_iff.mpr taken.some, ?_⟩
  obtain ⟨count, isPrefix⟩ := taken.isPrefix
  rw [isPrefix, List.length_take, List.length_drop, counted.rows]
  rw [counted.rows] at inside
  omega

theorem page_usage_valid : (pageUsage spec tables budget chunk ordinal).validate budget = .ok () := by
  have taken := page_taken spec tables budget chunk ordinal counted inside target
  have fits := taken.output
  exact usage_valid _ budget ⟨taken.input.counted, taken.input.sized⟩
    ⟨Nat.le_trans fits.counted (Nat.min_le_left _ _),
      fits.sized.imp (fun small => Nat.le_trans small (Nat.min_le_left _ _)) id⟩

theorem run_primitive_ok
    (data : (emitted spec tables budget chunk ordinal).length ≠ 0 → DataFits tables.output.stream chunk.chunkLsn) :
    runTransformPrimitive spec (boundStart tables key budget row) chunk ordinal =
      .ok (transformed spec tables key budget row chunk ordinal,
        ⟨pageUsage spec tables budget chunk ordinal, ordinal,
          ordinal + (page spec tables budget chunk ordinal).length - 1, pageOutput spec tables budget chunk ordinal⟩) := by
  have taken := page_taken spec tables budget chunk ordinal counted inside target
  have valid := page_usage_valid spec tables budget chunk ordinal counted inside target
  have someRows : (page spec tables budget chunk ordinal).isEmpty = false := by
    simpa using taken.some
  have fits := taken.output
  have sameOutput : (boundStart tables key budget row).output = outputState tables.output.stream := rfl
  have sameBudget : (boundStart tables key budget row).budget = budget := rfl
  have whole : chunk.payload.take chunk.rowCount = chunk.payload := by
    rw [counted.rows]
    exact List.take_length
  have isPage : selectedRows spec budget (outputState tables.output.stream) (chunk.payload.drop ordinal) =
      page spec tables budget chunk ordinal := rfl
  have isEmitted : spec.image (page spec tables budget chunk ordinal) = emitted spec tables budget chunk ordinal := rfl
  rw [isEmitted] at fits
  have withinTarget : (decide (min budget.maxOutputRows (outputState tables.output.stream).targetRows <
        (emitted spec tables budget chunk ordinal).length) ||
      (decide (1 < (emitted spec tables budget chunk ordinal).length) &&
        decide (min budget.maxOutputBytes (outputState tables.output.stream).targetBytes <
          spec.scanPlaceholder.outputBytes (emitted spec tables budget chunk ordinal)))) = false := by
    rw [decide_eq_false (Nat.not_lt.mpr fits.counted), Bool.false_or, Bool.and_eq_false_iff]
    rcases fits.sized with small | single
    · exact .inr (decide_eq_false (Nat.not_lt.mpr small))
    · exact .inl (by simp [single])
  unfold pageUsage at valid
  unfold runTransformPrimitive
  simp only [sameOutput, sameBudget, whole, isPage, isEmitted, someRows, valid, withinTarget, not_refused, ok_bind]
  by_cases none : (emitted spec tables budget chunk ordinal).length = 0
  · simp only [none, if_true, transformed, pageUsage, pageOutput]
    rfl
  · have present : emitted spec tables budget chunk ordinal ≠ [] := fun empty => none (by rw [empty]; rfl)
    have recorded := record_data_ok (boundStart tables key budget row) ⟨rfl, rfl⟩ _
      (spec.scanPlaceholder.outputBytes (emitted spec tables budget chunk ordinal)) chunk.chunkLsn
      (emitted spec tables budget chunk ordinal) (data none) (Nat.pos_of_ne_zero none) (output_bytes_positive _ _ present)
    simp only [none, if_false, transformed, pageUsage, pageOutput]
    exact bind_ok_iff.mpr ⟨_, recorded, rfl⟩

end Chunk

-- What a transform keeps of the context it started from.
structure Started (tables : TransformTables Row Out) (key : ConsumerKey) (budget : WorkBudget) (row : StreamConsumer)
    (context : TransformContext Row Out) : Prop where
  sameTables : context.tables = tables
  sameKey : context.key = key
  sameBudget : context.budget = budget
  sameInput : context.input = inputState tables.input row
  bound : context.continuationPresence = some tables.continuation.isSome
  frontier : context.frontierOutput = none
  expected : context.expectedRevision = tables.revision

section

variable {key : ConsumerKey} {budget : WorkBudget} {row : StreamConsumer} {tables : TransformTables Row Out}
  {context : TransformContext Row Out}

-- The context with a cursor inside its chunk, and past it.
theorem continued_context (started : Started tables key budget row context) (next : TransformContinuation) :
    (context.withContinuation (some next)).tables = { tables with continuation := some next } ∧
      (context.withContinuation (some next)).continuationPresence = some true ∧
      (context.withContinuation (some next)).continuationChanged = true ∧
      (context.withContinuation (some next)).budget = budget ∧
      (context.withContinuation (some next)).output = context.output ∧
      (context.withContinuation (some next)).frontierOutput = none ∧
      (context.withContinuation (some next)).expectedRevision = tables.revision := by
  refine ⟨?_, rfl, ?_, started.sameBudget, rfl, started.frontier, started.expected⟩
  · simp only [withContinuation, started.sameTables]
  · simp [withContinuation]

theorem passed_context (started : Started tables key budget row context) {usage : WorkUsage}
    {after : TransformContext Row Out} (isAfter : after = (context.withContinuation none).inputMoved
      (movedInput tables.input key row (row.nextChunkSeq + 1) row.consumedFrontierLsn usage).stream) :
    after.tables = { tables with
        input := movedInput tables.input key row (row.nextChunkSeq + 1) row.consumedFrontierLsn usage
        continuation := none } ∧
      after.continuationPresence = some false ∧ after.budget = budget ∧ after.output = context.output ∧
      after.frontierOutput = none ∧ after.expectedRevision = tables.revision := by
  subst isAfter
  refine ⟨?_, rfl, started.sameBudget, rfl, started.frontier, started.expected⟩
  simp only [inputMoved, withContinuation, started.sameTables]
  rfl

end

section Step

variable (spec : TransformSpec Row Out) (key : ConsumerKey) (tables : TransformTables Row Out) (budget : WorkBudget)
  (row : StreamConsumer) (chunk : EffectChunk Row) (ordinal : Nat)

theorem transformed_started : Started tables key budget row (transformed spec tables key budget row chunk ordinal) := by
  unfold transformed
  split
  · exact ⟨rfl, rfl, rfl, rfl, rfl, rfl, rfl⟩
  · exact ⟨rfl, rfl, rfl, rfl, rfl, rfl, rfl⟩

theorem transformed_facts : (transformed spec tables key budget row chunk ordinal).outputFacts =
    pageOutput spec tables budget chunk ordinal := by
  unfold transformed pageOutput
  split
  · rfl
  · rfl

variable (good : TransformInvariant spec key tables) (found : tables.input.stream.findConsumer key = some row)
  (reading : Reading spec tables row ordinal) (first : 1 ≤ row.nextChunkSeq)
  (stored : chunk ∈ tables.input.stream.chunks) (atCursor : chunk.chunkSeq = row.nextChunkSeq)

include good reading first stored atCursor

-- A ready step goes to the chunk at its cursor, from where it stopped.
theorem execute_data (kind : chunk.chunkKind = .data) : executeTransform spec (startContext tables key budget row) =
    stepDataTransform spec (boundStart tables key budget row) tables.continuation.isSome chunk ordinal := by
  have bound := bind_start_ok key budget row good.checkpoint
  have isContinuation : (startContext tables key budget row).tables.continuation = tables.continuation := rfl
  have counted := good.stored chunk (good.input.produced.stored.subset stored)
  have reads := chunk_at_stored good.input stored counted (atCursor ▸ first)
  have sameNext : (boundStart tables key budget row).input.nextChunkSeq = chunk.chunkSeq := atCursor.symm
  have sameInput : (boundStart tables key budget row).tables.input = tables.input := rfl
  have sameStream : (boundStart tables key budget row).input.streamId = tables.input.stream.streamId := rfl
  unfold executeTransform
  simp only [isContinuation, bound, ok_bind, sameNext, sameInput, reads, sameStream, kind]
  rw [reading.continuation]
  by_cases start : ordinal = 0
  · simp only [dataCursor, start, if_true, Option.any_none, not_refused, ok_bind]
    rfl
  · simp only [dataCursor, start, if_false, Option.any_some, ← atCursor, ne_eq, not_true_eq_false, decide_false, refuse,
      Bool.false_eq_true, ok_bind]
    rfl

theorem execute_frontier (kind : chunk.chunkKind = .frontier) (start : ordinal = 0) :
    executeTransform spec (startContext tables key budget row) =
      stepFrontier (boundStart tables key budget row) false chunk 0 := by
  have bound := bind_start_ok key budget row good.checkpoint
  have isContinuation : (startContext tables key budget row).tables.continuation = tables.continuation := rfl
  have counted := good.stored chunk (good.input.produced.stored.subset stored)
  have reads := chunk_at_stored good.input stored counted (atCursor ▸ first)
  have sameNext : (boundStart tables key budget row).input.nextChunkSeq = chunk.chunkSeq := atCursor.symm
  have sameInput : (boundStart tables key budget row).tables.input = tables.input := rfl
  unfold executeTransform
  simp only [isContinuation, bound, ok_bind, sameNext, sameInput, reads, kind]
  rw [reading.continuation]
  simp only [dataCursor, start, if_true, Option.any_none, not_refused, ok_bind]
  rfl

end Step

section Data

variable (spec : TransformSpec Row Out) (key : ConsumerKey) (tables : TransformTables Row Out) (budget : WorkBudget)
  (row : StreamConsumer) (chunk : EffectChunk Row) (ordinal : Nat)

-- The output once the page of the step is published.
def written (spec : TransformSpec Row Out) (tables : TransformTables Row Out) (budget : WorkBudget)
    (chunk : EffectChunk Row) (ordinal : Nat) : StreamHistory Out :=
  if (emitted spec tables budget chunk ordinal).length = 0 then tables.output
  else appendedHistory tables.output .data (emitted spec tables budget chunk ordinal).length
    (spec.scanPlaceholder.outputBytes (emitted spec tables budget chunk ordinal)) chunk.chunkLsn
    (emitted spec tables budget chunk ordinal)

theorem written_published (context : TransformContext Row Out)
    (sameOutput : context.output = (transformed spec tables key budget row chunk ordinal).output)
    (sameHistory : context.tables.output = tables.output) : context.publishedTables =
      { context.tables with output := written spec tables budget chunk ordinal } := by
  unfold publishedTables written
  rw [sameOutput, sameHistory]
  by_cases none : (emitted spec tables budget chunk ordinal).length = 0
  · simp only [transformed, none, if_true]
    rw [← sameHistory]
    rfl
  · simp only [transformed, none, if_false]
    rfl

variable (good : TransformInvariant spec key tables) (found : tables.input.stream.findConsumer key = some row)
  (reading : Reading spec tables row ordinal) (first : 1 ≤ row.nextChunkSeq)
  (stored : chunk ∈ tables.input.stream.chunks) (atCursor : chunk.chunkSeq = row.nextChunkSeq)
  (kind : chunk.chunkKind = .data) (inside : ordinal < chunk.rowCount)
  (flowing : tables.output.stream.backpressured = false)
  (numbers : (emitted spec tables budget chunk ordinal).length ≠ 0 → tables.output.stream.nextChunkSeq ≠ bigintMax)

include good reading stored atCursor kind

-- The chunk follows everything the output holds.
theorem reading_fits (numbers : tables.output.stream.nextChunkSeq ≠ bigintMax) :
    DataFits tables.output.stream chunk.chunkLsn :=
  chunk_data_fits ⟨reading.published, reading.latest⟩
    (good.input.produced.stored.subset stored) atCursor good.input good.operator good.causal kind numbers

omit kind stored in
theorem finish_inside (context : TransformContext Row Out) (started : Started tables key budget row context) (nextRow : Nat)
    (more : nextRow < chunk.rowCount) (first : 1 ≤ row.nextChunkSeq) :
    finishTransform context tables.continuation.isSome chunk ordinal nextRow =
      .ok (context.withContinuation (some ⟨tables.input.stream.streamId, row.nextChunkSeq, nextRow⟩)) := by
  have sameStream : context.input.streamId = tables.input.stream.streamId := by rw [started.sameInput]; rfl
  have saved : (if tables.continuation.isSome = true then
      some (⟨tables.input.stream.streamId, row.nextChunkSeq, ordinal⟩ : TransformContinuation) else none) =
      context.tables.continuation := by
    rw [started.sameTables, reading.continuation]
    unfold dataCursor
    split
    · rfl
    · rfl
  have bound : context.continuationPresence = some context.tables.continuation.isSome := by
    rw [started.bound, started.sameTables]
  unfold finishTransform
  rw [if_pos more, sameStream, atCursor, saved]
  exact replace_transform_ok context bound _ good.streamId first

include found first

omit reading in
theorem finish_whole (context : TransformContext Row Out) (started : Started tables key budget row context) :
    finishTransform context tables.continuation.isSome chunk ordinal chunk.rowCount =
      .ok ((context.withContinuation none).inputMoved (movedInput tables.input key row (row.nextChunkSeq + 1)
        row.consumedFrontierLsn ⟨chunk.rowCount, chunk.payloadBytes, 0, 0⟩).stream) := by
  have bound : context.continuationPresence = some context.tables.continuation.isSome := by
    rw [started.bound, started.sameTables]
  have deleted : deleteContinuation context _ = _ := delete_stored_ok context "linear" bound
  rw [started.sameTables] at deleted
  have input : (context.withContinuation none).tables.input = tables.input := by
    change context.tables.input = tables.input
    rw [started.sameTables]
  have isKey : (context.withContinuation none).key = key := started.sameKey
  have isInput : (context.withContinuation none).input = inputState tables.input row := started.sameInput
  have level : (context.withContinuation none).input.consumedFrontierLsn = row.consumedFrontierLsn := by
    rw [isInput]
    rfl
  have causal := data_move_causal good.input good.operator stored atCursor kind ⟨chunk.rowCount, chunk.payloadBytes, 0, 0⟩
  have advanced := advance_input_ok (context.withContinuation none) row (by rw [input, isKey, found])
    (by rw [isInput]; rfl) level (row.nextChunkSeq + 1) row.consumedFrontierLsn
    ⟨chunk.rowCount, chunk.payloadBytes, 0, 0⟩
    (by
      rw [input]
      exact chunk_move_fits good.input first chunk stored atCursor _ (Nat.le_refl _))
    (by rw [input]; exact causal)
  rw [input, isKey] at advanced
  unfold finishTransform
  simp only [Nat.lt_irrefl, if_false, if_true, deleted, ok_bind, level, atCursor]
  exact advanced

include inside flowing numbers

-- A data step commits once it knows how its chunk goes on.
theorem data_commits (context : TransformContext Row Out) (hasContinuation : Bool)
    (finish : finishTransform (transformed spec tables key budget row chunk ordinal) tables.continuation.isSome chunk ordinal
      (ordinal + (page spec tables budget chunk ordinal).length) = .ok context)
    (sameOutput : context.output = (transformed spec tables key budget row chunk ordinal).output)
    (sameHistory : context.tables.output = tables.output)
    (sameFrontier : context.frontierOutput = none) (sameBudget : context.budget = budget)
    (bound : context.continuationPresence = some hasContinuation)
    (progress : hasContinuation = true → context.continuationChanged = true)
    (expected : context.tables.revision = context.expectedRevision) : stepTransform spec tables key budget =
      .ok { context.tables with
        output := written spec tables budget chunk ordinal
        revision := context.tables.revision + 1
        hasContinuation } := by
  have counted := good.stored chunk (good.input.produced.stored.subset stored)
  have target := good.output.target
  have data := fun written =>
    reading_fits spec key tables row chunk ordinal good reading stored atCursor kind (numbers written)
  have valid := page_usage_valid spec tables budget chunk ordinal counted inside target
  have run := run_primitive_ok spec key tables budget row chunk ordinal counted inside target data
  have facts : context.outputFacts = pageOutput spec tables budget chunk ordinal := by
    rw [← transformed_facts spec key tables budget row chunk ordinal]
    have none : (transformed spec tables key budget row chunk ordinal).frontierOutput = none :=
      (transformed_started spec key tables budget row chunk ordinal).frontier
    unfold StepContext.outputFacts
    rw [sameOutput, sameFrontier, none]
  have agrees : OutputAgrees .process (pageUsage spec tables budget chunk ordinal)
      (pageOutput spec tables budget chunk ordinal) := by
    unfold pageOutput
    split
    · rename_i none
      exact none
    · rename_i some
      exact ⟨some, by simp⟩
  have isData : (pageOutput spec tables budget chunk ordinal).isFrontier = false := by
    unfold pageOutput
    split
    · rfl
    · rfl
  have numbered : ∀ sequence, pageOutput spec tables budget chunk ordinal = .data sequence → sequence ≠ 0 := by
    intro sequence same
    unfold pageOutput at same
    split at same
    · cases same
    · obtain rfl := OutputFacts.data.inj same
      exact Nat.ne_of_gt good.output.numbered
  have fits : PendingFits context := by
    intro pending isPending
    rw [sameOutput] at isPending
    by_cases none : (emitted spec tables budget chunk ordinal).length = 0
    · simp only [transformed, none, if_true] at isPending
      cases isPending
    · simp only [transformed, none, if_false] at isPending
      obtain rfl := Option.some.inj isPending
      have taken := (page_taken spec tables budget chunk ordinal counted inside target).output
      have present : emitted spec tables budget chunk ordinal ≠ [] := fun empty => none (by rw [empty]; rfl)
      rw [sameHistory]
      exact ⟨⟨good.output.operator, good.output.watched, good.output.numbered, flowing⟩, rfl, data none,
        page_resources _ _ _ (Nat.pos_of_ne_zero none) (output_bytes_positive _ _ present)
          (Nat.le_trans taken.counted (Nat.min_le_right _ _))
          (taken.sized.imp (fun small => Nat.le_trans small (Nat.min_le_right _ _)) id)⟩
  have within : (pageUsage spec tables budget chunk ordinal).validate context.budget = .ok () := by
    rw [sameBudget]
    exact valid
  obtain ⟨moved, committable⟩ := process_commits context .process
    { usage := pageUsage spec tables budget chunk ordinal, output := pageOutput spec tables budget chunk ordinal }
    hasContinuation bound within progress facts agrees isData numbered fits expected
  have executed : executeTransform spec (startContext tables key budget row) =
      .ok (context.withStateRows 0, (context.withStateRows 0).stepReceipt .process
        (pageUsage spec tables budget chunk ordinal) hasContinuation) := by
    have sameNext : (boundStart tables key budget row).input.nextChunkSeq = row.nextChunkSeq := rfl
    have whole : payloadFacts spec.scanPlaceholder (boundStart tables key budget row).input.streamId chunk = .ok () := by
      simp [payloadFacts, counted.rows, counted.bytes, refuse]
    have length := (page_length spec tables budget chunk ordinal counted inside target).1
    have last : ordinal + (page spec tables budget chunk ordinal).length - 1 + 1 =
        ordinal + (page spec tables budget chunk ordinal).length := by omega
    rw [execute_data spec key tables budget row chunk ordinal good reading first stored atCursor kind]
    unfold stepDataTransform
    simp only [Nat.not_le.mpr inside, decide_false, sameNext, atCursor, whole, run, refuse, ok_bind, ne_eq,
      not_true_eq_false, Bool.false_eq_true, if_false, last, finish]
    split
    · exact moved
    · exact moved
  have starts := begin_starts tables key budget row found flowing (.inr (stored_ahead good.input stored atCursor))
  have notSource : (startContext tables key budget row).input.producer.isSource = false := good.operator
  have ran := run_kernel_ok [.admitted, .process, .frontier] false (executeTransform spec) tables key budget _ starts
    notSource _ .process _ hasContinuation (by simp) executed committable
  unfold stepTransform
  rw [ran]
  have published := written_published spec key tables budget row chunk ordinal context sameOutput sameHistory
  have same : (context.withStateRows 0).publishedTables = context.publishedTables := rfl
  unfold committedTables
  rw [same, published]
  rfl

-- The stage inside a chunk, and past it.
def insideTables (spec : TransformSpec Row Out) (tables : TransformTables Row Out) (budget : WorkBudget)
    (row : StreamConsumer) (chunk : EffectChunk Row) (ordinal : Nat) : TransformTables Row Out :=
  { tables with
    output := written spec tables budget chunk ordinal
    revision := tables.revision + 1
    hasContinuation := true
    continuation := some ⟨tables.input.stream.streamId, row.nextChunkSeq,
      ordinal + (page spec tables budget chunk ordinal).length⟩ }

def passedTables (spec : TransformSpec Row Out) (tables : TransformTables Row Out) (key : ConsumerKey) (budget : WorkBudget)
    (row : StreamConsumer) (chunk : EffectChunk Row) (ordinal : Nat) : TransformTables Row Out :=
  { tables with
    input := movedInput tables.input key row (row.nextChunkSeq + 1) row.consumedFrontierLsn
      ⟨chunk.rowCount, chunk.payloadBytes, 0, 0⟩
    output := written spec tables budget chunk ordinal
    revision := tables.revision + 1
    hasContinuation := false
    continuation := none }

theorem step_inside (more : ordinal + (page spec tables budget chunk ordinal).length < chunk.rowCount) :
    stepTransform spec tables key budget = .ok (insideTables spec tables budget row chunk ordinal) := by
  have started := transformed_started spec key tables budget row chunk ordinal
  have finish := finish_inside spec key tables budget row chunk ordinal good reading atCursor _ started _ more first
  obtain ⟨sameTables, bound, changed, sameBudget, sameOutput, sameFrontier, expected⟩ := continued_context started ⟨tables.input.stream.streamId, row.nextChunkSeq, ordinal + (page spec tables budget chunk ordinal).length⟩
  rw [data_commits spec key tables budget row chunk ordinal good found reading first stored atCursor kind inside flowing
    numbers _ true finish sameOutput (by rw [sameTables]) sameFrontier sameBudget bound (fun _ => changed)
    (by rw [sameTables, expected]), sameTables]
  rfl

theorem step_whole (whole : ordinal + (page spec tables budget chunk ordinal).length = chunk.rowCount) :
    stepTransform spec tables key budget = .ok (passedTables spec tables key budget row chunk ordinal) := by
  have started := transformed_started spec key tables budget row chunk ordinal
  have finish := finish_whole spec key tables budget row chunk ordinal good found first stored atCursor kind _ started
  rw [← whole] at finish
  obtain ⟨sameTables, bound, sameBudget, sameOutput, sameFrontier, expected⟩ := passed_context started rfl
  rw [data_commits spec key tables budget row chunk ordinal good found reading first stored atCursor kind inside flowing
    numbers _ false finish sameOutput (by rw [sameTables]) sameFrontier sameBudget bound (fun wrong => by cases wrong)
    (by rw [sameTables, expected]), sameTables, whole]
  rfl

omit numbers inside reading first kind in
theorem kernel_ran (after : TransformTables Row Out) (ok : stepTransform spec tables key budget = .ok after) :
    ∃ result, executeTransform spec (startContext tables key budget row) = .ok result := by
  have starts := begin_starts tables key budget row found flowing (.inr (stored_ahead good.input stored atCursor))
  obtain ⟨stepped, receipt, executed, _⟩ := run_kernel_steps [.admitted, .process, .frontier] false (executeTransform spec)
    tables key budget _ starts after ok
  exact ⟨_, executed⟩

omit numbers in
-- A step that wrote rows had a number for their chunk.
theorem data_needs_number (after : TransformTables Row Out) (ok : stepTransform spec tables key budget = .ok after)
    (some : (emitted spec tables budget chunk ordinal).length ≠ 0) : tables.output.stream.nextChunkSeq ≠ bigintMax := by
  have counted := good.stored chunk (good.input.produced.stored.subset stored)
  have valid := page_usage_valid spec tables budget chunk ordinal counted inside good.output.target
  obtain ⟨result, executed⟩ := kernel_ran spec key tables budget row chunk good found stored atCursor flowing after ok
  rw [execute_data spec key tables budget row chunk ordinal good reading first stored atCursor kind] at executed
  unfold stepDataTransform at executed
  have executed := past_check (past_check executed)
  have ran : ∃ ran, runTransformPrimitive spec (boundStart tables key budget row) chunk ordinal = .ok ran := by
    simp only at executed
    split at executed
    · obtain ⟨_, _, executed⟩ := bind_ok_iff.mp executed
      obtain ⟨ran, read, _⟩ := bind_ok_iff.mp executed
      exact ⟨ran, read⟩
    · obtain ⟨ran, read, _⟩ := bind_ok_iff.mp executed
      exact ⟨ran, read⟩
  obtain ⟨ran, read⟩ := ran
  have sameOutput : (boundStart tables key budget row).output = outputState tables.output.stream := rfl
  have sameBudget : (boundStart tables key budget row).budget = budget := rfl
  have whole : chunk.payload.take chunk.rowCount = chunk.payload := by
    rw [counted.rows]
    exact List.take_length
  have isPage : selectedRows spec budget (outputState tables.output.stream) (chunk.payload.drop ordinal) =
      page spec tables budget chunk ordinal := rfl
  have isEmitted : spec.image (page spec tables budget chunk ordinal) = emitted spec tables budget chunk ordinal := rfl
  unfold pageUsage at valid
  unfold runTransformPrimitive at read
  obtain ⟨_, read⟩ := refuse_bind_ok.mp read
  simp only [sameOutput, sameBudget, whole, isPage, isEmitted, valid, ok_bind, some, if_false] at read
  obtain ⟨_, read⟩ := refuse_bind_ok.mp read
  obtain ⟨recorded, wrote, _⟩ := bind_ok_iff.mp read
  exact record_data_numbers (boundStart tables key budget row) ⟨rfl, rfl⟩ _ _ _ _ recorded wrote

end Data

section Frontier

variable (spec : TransformSpec Row Out) (key : ConsumerKey) (tables : TransformTables Row Out) (budget : WorkBudget)
  (row : StreamConsumer) (chunk : EffectChunk Row) (good : TransformInvariant spec key tables)
  (found : tables.input.stream.findConsumer key = some row) (reading : Reading spec tables row 0)
  (first : 1 ≤ row.nextChunkSeq) (flat : row.activationLsn = 0) (stored : chunk ∈ tables.input.stream.chunks)
  (atCursor : chunk.chunkSeq = row.nextChunkSeq) (kind : chunk.chunkKind = .frontier)
  (flowing : tables.output.stream.backpressured = false) (numbers : tables.output.stream.nextChunkSeq ≠ bigintMax)

include good reading stored atCursor kind numbers

-- The frontier lies above the last one and covers the data behind it.
theorem reading_covers : FrontierFits tables.output.stream chunk.chunkLsn :=
  chunk_frontier_fits ⟨reading.published, reading.latest⟩
    (good.input.produced.stored.subset stored) atCursor good.input good.operator kind numbers

-- The stage past a frontier.
def forwardedTables (tables : TransformTables Row Out) (key : ConsumerKey) (row : StreamConsumer)
    (chunk : EffectChunk Row) : TransformTables Row Out :=
  { tables with
    input := movedInput tables.input key row (row.nextChunkSeq + 1) chunk.chunkLsn {}
    output := appendedHistory tables.output .frontier 0 0 chunk.chunkLsn []
    revision := tables.revision + 1
    hasContinuation := false }

def forwarded (tables : TransformTables Row Out) (key : ConsumerKey) (budget : WorkBudget) (row : StreamConsumer)
    (chunk : EffectChunk Row) : TransformContext Row Out :=
  ((boundStart tables key budget row).frontierAppended chunk.chunkLsn).inputMoved
    (movedInput tables.input key row (row.nextChunkSeq + 1) chunk.chunkLsn {}).stream

include found first flat flowing

theorem step_frontier : stepTransform spec tables key budget = .ok (forwardedTables tables key row chunk) := by
  have produced := good.input.produced.stored.subset stored
  obtain ⟨member, named⟩ := found_consumer tables.input key row found
  have unsaved : tables.continuation = none := reading.continuation
  have ready : OutputReady tables.output.stream :=
    ⟨good.output.operator, good.output.watched, good.output.numbered, flowing⟩
  have fits := reading_covers spec key tables row chunk good reading stored atCursor kind numbers
  have appended := append_frontier_ok (boundStart tables key budget row) ⟨rfl, rfl⟩ chunk.chunkLsn ready fits
  obtain ⟨raised, causal⟩ := frontier_move_causal good.input good.operator stored atCursor member flat kind {}
  have advanced := advance_input_ok ((boundStart tables key budget row).frontierAppended chunk.chunkLsn) row found rfl rfl
    (row.nextChunkSeq + 1) chunk.chunkLsn {}
    (chunk_move_fits good.input first chunk stored atCursor _ raised) causal
  obtain ⟨moved, committable⟩ := frontier_commits (forwarded tables key budget row chunk) _ rfl rfl
    (by
      change some tables.continuation.isSome = some false
      rw [unsaved]
      rfl) rfl
  have executed : executeTransform spec (startContext tables key budget row) =
      .ok (forwarded tables key budget row chunk, (forwarded tables key budget row chunk).stepReceipt .frontier {} false) := by
    rw [execute_frontier spec key tables budget row chunk 0 good reading first stored atCursor kind rfl]
    unfold stepFrontier
    simp only [ne_eq, not_true_eq_false, decide_false, not_refused, ok_bind, appended, atCursor]
    refine bind_ok_iff.mpr ⟨_, advanced, ?_⟩
    refine bind_ok_iff.mpr ⟨_, rfl, ?_⟩
    exact bind_ok_iff.mpr ⟨_, moved, rfl⟩
  have starts := begin_starts tables key budget row found flowing (.inr (stored_ahead good.input stored atCursor))
  have notSource : (startContext tables key budget row).input.producer.isSource = false := good.operator
  have ran := run_kernel_ok [.admitted, .process, .frontier] false (executeTransform spec) tables key budget _ starts
    notSource _ .frontier {} false (by simp) executed committable
  unfold stepTransform
  rw [ran]
  rfl

omit numbers flat in
theorem frontier_needs_number (after : TransformTables Row Out) (ok : stepTransform spec tables key budget = .ok after) :
    tables.output.stream.nextChunkSeq ≠ bigintMax := by
  have starts := begin_starts tables key budget row found flowing (.inr (stored_ahead good.input stored atCursor))
  obtain ⟨stepped, receipt, executed, _⟩ := run_kernel_steps [.admitted, .process, .frontier] false (executeTransform spec)
    tables key budget _ starts after ok
  rw [execute_frontier spec key tables budget row chunk 0 good reading first stored atCursor kind rfl] at executed
  unfold stepFrontier at executed
  obtain ⟨_, executed⟩ := refuse_bind_ok.mp executed
  obtain ⟨appended, wrote, _⟩ := bind_ok_iff.mp executed
  exact (append_frontier_fits (boundStart tables key budget row) ⟨rfl, rfl⟩ chunk.chunkLsn wrote).numbers

end Frontier

end Shiba.Linear.Transform
