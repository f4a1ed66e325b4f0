import Shiba.Sink.Exact

set_option autoImplicit false

namespace Shiba.Runtime.Pipeline

open Transition Weighted Shiba.Stream Shiba.Execution Shiba.Linear Shiba.Linear.Transform Shiba.Sink

variable {Row Mid Out : Type}

-- A call of some consumer, or of garbage collection, on what a stage has written.
def Drawn (before after : StreamHistory Row) : Prop :=
  after = before ∨ ∃ op, ReaderOp op ∧ historyStep before op = .ok after

theorem drawn_produced {before after : StreamHistory Row} (drawn : Drawn before after) :
    after.produced = before.produced := by
  rcases drawn with rfl | ⟨op, reads, moved⟩
  · rfl
  · exact reader_produced reads moved

section

variable {grown history : StreamHistory Row} {budget : WorkBudget} {more : List (EffectChunk Row)}
  {tables : TransformTables Row Mid} {key : ConsumerKey} {spec : TransformSpec Row Mid}

-- Stepping over the chunk at its cursor is a consumer's call on its stream.
theorem passed_drawn {input : StreamHistory Row} (good : StreamInvariant input) (operator : input.stream.isSource = false)
    {row : StreamConsumer} (found : input.stream.findConsumer key = some row) (first : 1 ≤ row.nextChunkSeq)
    {chunk : EffectChunk Row} (stored : chunk ∈ input.stream.chunks) (atCursor : chunk.chunkSeq = row.nextChunkSeq)
    (usage : WorkUsage) :
    Drawn input (movedInput input key row (row.nextChunkSeq + 1) (carriedFrontier row chunk) usage) := by
  have fits := chunk_move_fits good first chunk stored atCursor _ (frontier_carried row chunk)
  have moved := StepContext.advance_ok found fits (operator_move_causal good operator stored atCursor usage)
  refine .inr ⟨.advance key (StepContext.moveOf row (row.nextChunkSeq + 1) (carriedFrontier row chunk) usage), trivial,
    ?_⟩
  simp only [historyStep, moved]
  rfl

-- What a step of a Filter or Project adds to its output.
inductive Wrote (spec : TransformSpec Row Mid) (tables : TransformTables Row Mid) (output : StreamHistory Mid) : Prop where
  | nothing (same : output = tables.output)
  | data (lsn : Lsn) (rows : List (EffectRow Mid)) (follows : behind tables.output.stream.latestDataLsn lsn = false)
      (appended : historyStep tables.output (.append tables.output.stream.nextChunkSeq .data rows.length
        (spec.scanPlaceholder.outputBytes rows) lsn rows) = .ok output)
  | frontier (mark : EffectChunk Row) (produced : mark ∈ tables.input.produced) (kind : mark.chunkKind = .frontier)
      (image : outputRows tables.output = spec.image (readRows tables.input mark.chunkSeq 0))
      (appended : historyStep tables.output (.append tables.output.stream.nextChunkSeq .frontier 0 0 mark.chunkLsn []) =
        .ok output)

theorem appended_step (ready : OutputReady history.stream) (kind : ChunkKind) (rowCount payloadBytes : Nat) (chunkLsn : Lsn)
    (payload : List (EffectRow Row)) (numbers : history.stream.nextChunkSeq ≠ bigintMax)
    (fits : resourcesFit history.stream.toStreamLimits kind rowCount payloadBytes = true)
    (causal : causalFault history.stream history.published kind chunkLsn = none) :
    historyStep history (.append history.stream.nextChunkSeq kind rowCount payloadBytes chunkLsn payload) =
      .ok (appendedHistory history kind rowCount payloadBytes chunkLsn payload) := by
  simp only [historyStep, append_ok history ready kind rowCount payloadBytes chunkLsn payload numbers fits causal]
  rfl

-- The rows of a page go behind the output in one chunk; a page without rows leaves it.
theorem page_wrote (good : TransformInvariant spec key tables) {row : StreamConsumer} {chunk : EffectChunk Row}
    {ordinal : Nat} (reading : Reading spec tables row ordinal) (stored : chunk ∈ tables.input.stream.chunks)
    (atCursor : chunk.chunkSeq = row.nextChunkSeq) (kind : chunk.chunkKind = .data) (inside : ordinal < chunk.rowCount)
    (ready : OutputReady tables.output.stream)
    (numbers : (emitted spec tables budget chunk ordinal).length ≠ 0 → tables.output.stream.nextChunkSeq ≠ bigintMax) :
    Wrote spec tables (written spec tables budget chunk ordinal) := by
  by_cases none : (emitted spec tables budget chunk ordinal).length = 0
  · exact .nothing (if_pos none)
  · have counted := good.stored chunk (good.input.produced.stored.subset stored)
    have fits := reading_fits spec key tables row chunk ordinal good reading stored atCursor kind (numbers none)
    have taken := (page_taken spec tables budget chunk ordinal counted inside good.output.target).output
    have present : emitted spec tables budget chunk ordinal ≠ [] := fun empty => none (by rw [empty]; rfl)
    refine .data chunk.chunkLsn (emitted spec tables budget chunk ordinal) fits.follows ?_
    rw [written, if_neg none]
    exact appended_step ready .data _ _ _ _ fits.numbers
      (page_resources _ _ _ (Nat.pos_of_ne_zero none) (output_bytes_positive _ _ present)
        (Nat.le_trans taken.counted (Nat.min_le_right _ _))
        (taken.sized.imp (fun small => Nat.le_trans small (Nat.min_le_right _ _)) id))
      (data_causal _ _ _ good.output.operator fits.rises)

theorem transform_wrote {after : TransformTables Row Mid} (good : TransformInvariant spec key tables)
    (ok : stepTransform spec tables key budget = .ok after) :
    Drawn tables.input after.input ∧ Wrote spec tables after.output := by
  obtain ⟨row, ordinal, stands⟩ := Transform.invariant_stands spec key tables good
  by_cases goes : tables.output.stream.backpressured = false ∧ row.nextChunkSeq < tables.input.stream.nextChunkSeq
  · obtain ⟨flowing, pending⟩ := goes
    obtain ⟨chunk, stored, atCursor, data, frontier⟩ := cursor_chunk spec key tables row ordinal stands pending
    obtain ⟨_, found, first, flat, reading⟩ := stands
    have produced := good.input.produced.stored.subset stored
    have passed := passed_drawn good.input good.operator found first stored atCursor
    have ready : OutputReady tables.output.stream :=
      ⟨good.output.operator, good.output.watched, good.output.numbered, flowing⟩
    cases kind : chunk.chunkKind with
    | data =>
        have inside := data kind
        have counted := good.stored chunk produced
        have numbers := data_needs_number spec key tables budget row chunk ordinal good found reading first stored atCursor
          kind inside flowing after ok
        have wrote := page_wrote good reading stored atCursor kind inside ready numbers
        have length := page_length spec tables budget chunk ordinal counted inside good.output.target
        rcases Nat.lt_or_eq_of_le length.2 with more | whole
        · rw [step_inside spec key tables budget row chunk ordinal good found reading first stored atCursor kind inside
            flowing numbers more] at ok
          obtain rfl := Except.ok.inj ok
          exact ⟨.inl rfl, wrote⟩
        · rw [step_whole spec key tables budget row chunk ordinal good found reading first stored atCursor kind inside
            flowing numbers whole] at ok
          obtain rfl := Except.ok.inj ok
          have carried : carriedFrontier row chunk = row.consumedFrontierLsn := by simp only [carriedFrontier, kind]
          have moved := passed ⟨chunk.rowCount, chunk.payloadBytes, 0, 0⟩
          rw [carried] at moved
          exact ⟨moved, wrote⟩
    | frontier =>
        have start := frontier kind
        subst start
        have numbers := frontier_needs_number spec key tables budget row chunk good found reading first stored atCursor kind
          flowing after ok
        rw [Transform.step_frontier spec key tables budget row chunk good found reading first flat stored atCursor kind
          flowing numbers] at ok
        obtain rfl := Except.ok.inj ok
        have fits := reading_covers spec key tables row chunk good reading stored atCursor kind numbers
        have carried : carriedFrontier row chunk = chunk.chunkLsn := by
          have raised := frontier_ahead good.input good.operator (found_consumer tables.input key row found).1 flat produced
            (Nat.le_of_eq atCursor.symm)
          simp only [carriedFrontier, kind]
          exact Nat.max_eq_right raised
        have moved := passed {}
        rw [carried] at moved
        refine ⟨moved, .frontier chunk produced kind (by rw [atCursor]; exact reading.written) ?_⟩
        exact appended_step ready .frontier 0 0 _ [] numbers rfl
          ((frontier_causal _ _ _ good.output.operator).mpr ⟨fits.rises, fits.covers⟩)
  · have waits : tables.output.stream.backpressured = true ∨ ¬ row.nextChunkSeq < tables.input.stream.nextChunkSeq := by
      rw [not_and_or, Bool.not_eq_false] at goes
      exact goes
    obtain rfl := Transform.step_waits spec key tables after budget row ordinal stands waits ok
    exact ⟨.inl rfl, .nothing rfl⟩

theorem sink_drawn [DecidableEq Out] {spec : SinkSpec Row Out} {tables after : SinkTables Row Out}
    (good : SinkInvariant spec key tables) (ok : stepSink spec tables key budget = .ok after) :
    Drawn tables.input after.input := by
  obtain ⟨row, continuation, stands⟩ := Sink.invariant_stands spec key tables good
  by_cases pending : row.nextChunkSeq < tables.input.stream.nextChunkSeq
  · obtain ⟨chunk, here⟩ := pending_chunk stands pending
    have passed := passed_drawn good.input good.operator stands.found stands.first here.stored here.atCursor
    cases kind : chunk.chunkKind with
    | data =>
        obtain ⟨actions, quantum, next, paged⟩ := page_planned budget here kind
        rw [step_data here kind paged (step_data_needs here kind paged after ok)] at ok
        obtain rfl := Except.ok.inj ok
        cases next with
        | none => exact passed _
        | some onward => exact .inl rfl
    | frontier =>
        rw [Sink.step_frontier budget here kind] at ok
        obtain rfl := Except.ok.inj ok
        exact passed _
  · exact .inl (by rw [Sink.step_waits spec key tables after budget row continuation stands pending ok])

-- A stage's frontiers stand in its output where the image of what was read
-- before them ends.
def Marked (spec : TransformSpec Row Mid) (input : StreamHistory Row) (output : StreamHistory Mid) : Prop :=
  ∀ chunk ∈ output.produced, chunk.chunkKind = .frontier → ∃ mark ∈ input.produced, mark.chunkKind = .frontier ∧
    mark.chunkLsn = chunk.chunkLsn ∧ readRows output chunk.chunkSeq 0 = spec.image (readRows input mark.chunkSeq 0)

theorem read_before (good : StreamInvariant history) (isGrown : grown.produced = history.produced ++ more)
    {chunk : EffectChunk Row} (produced : chunk ∈ history.produced) :
    readRows grown chunk.chunkSeq 0 = readRows history chunk.chunkSeq 0 := by
  have below := produced_below history good.produced chunk produced
  have length := good.produced.next
  exact read_rows_grow history more grown isGrown _ _ (by omega) (fun started => absurd rfl started)
    (produced_at good produced).1

theorem read_rows_leading (history : StreamHistory Row) (next ordinal : Nat) :
    readRows history next ordinal <+: outputRows history := by
  unfold readRows outputRows
  cases here : history.produced[next - 1]? with
  | none =>
      rw [List.take_of_length_le (List.getElem?_eq_none_iff.mp here)]
      simp
  | some chunk =>
      obtain ⟨inside, isChunk⟩ := List.getElem?_eq_some_iff.mp here
      have split : history.produced = history.produced.take (next - 1) ++ chunk :: history.produced.drop (next - 1 + 1) := by
        rw [← isChunk, ← List.drop_eq_getElem_cons inside, List.take_append_drop]
      conv_rhs => rw [split]
      rw [List.flatMap_append, List.flatMap_cons]
      exact (List.prefix_append_right_inj _).mpr ((List.take_prefix _ _).trans (List.prefix_append _ _))

theorem marked_input {input : StreamHistory Row} {output : StreamHistory Mid} (good : StreamInvariant input)
    (isGrown : grown.produced = input.produced ++ more) (marked : Marked spec input output) : Marked spec grown output := by
  intro chunk produced kind
  obtain ⟨mark, inside, isFrontier, same, image⟩ := marked chunk produced kind
  exact ⟨mark, isGrown ▸ List.mem_append_left _ inside, isFrontier, same, image.trans
    (congrArg spec.image (read_before good isGrown inside).symm)⟩

-- A chunk behind the output keeps the marks when it is data, and when it is a
-- frontier of the input with the image of what stands before it there.
theorem marked_appended {input : StreamHistory Row} {output : StreamHistory Mid} (good : StreamInvariant output)
    (marked : Marked spec input output) (kind : ChunkKind) (rowCount payloadBytes : Nat) (lsn : Lsn)
    (payload : List (EffectRow Mid))
    (fresh : kind = .frontier → ∃ mark ∈ input.produced, mark.chunkKind = .frontier ∧ mark.chunkLsn = lsn ∧
      outputRows output = spec.image (readRows input mark.chunkSeq 0)) :
    Marked spec input (appendedHistory output kind rowCount payloadBytes lsn payload) := by
  intro chunk member isFrontier
  rcases List.mem_append.mp member with old | new
  · obtain ⟨mark, inside, isMark, same, image⟩ := marked chunk old isFrontier
    exact ⟨mark, inside, isMark, same, (read_before good rfl old).trans image⟩
  · obtain rfl := List.mem_singleton.mp new
    obtain ⟨mark, inside, isMark, same, image⟩ := fresh isFrontier
    refine ⟨mark, inside, isMark, same, image ▸ ?_⟩
    change readRows _ output.stream.nextChunkSeq 0 = _
    simp [readRows, appendedHistory, outputRows, good.produced.next]

theorem marked_output {output : StreamHistory Mid} (good : StreamInvariant tables.output) (wrote : Wrote spec tables output)
    (marked : Marked spec tables.input tables.output) : Marked spec tables.input output := by
  cases wrote with
  | nothing same => exact same ▸ marked
  | data lsn rows follows appended =>
      rcases append_history_cases _ _ _ appended with rfl | ⟨_, _, rfl⟩
      · exact marked
      · exact marked_appended good marked .data _ _ lsn rows (fun wrong => by cases wrong)
  | frontier mark produced kind image appended =>
      rcases append_history_cases _ _ _ appended with rfl | ⟨_, _, rfl⟩
      · exact marked
      · exact marked_appended good marked .frontier _ _ _ [] (fun _ => ⟨mark, produced, kind, rfl, image⟩)

-- A stage passes on the weights it reads.
theorem written_signed (good : TransformInvariant spec key tables)
    (signed : ∀ row ∈ outputRows tables.input, row.weight ≠ 0) :
    ∀ row ∈ outputRows tables.output, row.weight ≠ 0 := by
  obtain ⟨_, _, _, _, _, ordinal, reading⟩ := good.consumer
  intro row member
  rw [reading.written] at member
  obtain ⟨source, passing, rfl⟩ := List.mem_map.mp member
  exact signed source ((read_rows_leading tables.input _ ordinal).subset (List.mem_filter.mp passing).1)

end

-- Filters and Projects in a row. Each reads the stream of its index and writes the
-- next one; the Sink reads the last. `keys` names the consumer of each stream.
structure PipelineSpec (Row Out : Type) where
  depth : Nat
  operators : Nat → TransformOperator Row Row
  mapping : Row → Out
  length : Row → Nat
  keys : Nat → ConsumerKey

-- What a stage keeps beside its streams.
structure StageCheckpoint (Cont State : Type) where
  revision : Nat
  hasContinuation : Bool
  continuation : Option Cont
  state : State

structure PipelineTables (Row Out : Type) where
  streams : Nat → StreamHistory Row
  stages : Nat → StageCheckpoint TransformContinuation Unit
  result : StageCheckpoint ContinuationRow (List Out)

namespace PipelineSpec

def transform (spec : PipelineSpec Row Out) (index : Nat) : TransformSpec Row Row :=
  ⟨spec.operators index, spec.length, spec.length⟩

def sink (spec : PipelineSpec Row Out) : SinkSpec Row Out := ⟨spec.mapping, spec.length⟩

-- The query of the first stages.
def image (spec : PipelineSpec Row Out) : Nat → List (EffectRow Row) → List (EffectRow Row)
  | 0, rows => rows
  | index + 1, rows => (spec.transform index).image (spec.image index rows)

end PipelineSpec

variable (spec : PipelineSpec Row Out)

def checkpointOf {Input Output Cont State : Type} (tables : StageTables Input Output Cont State) :
    StageCheckpoint Cont State :=
  ⟨tables.revision, tables.hasContinuation, tables.continuation, tables.state⟩

namespace PipelineTables

variable (tables : PipelineTables Row Out)

def stage (index : Nat) : TransformTables Row Row :=
  let saved := tables.stages index
  ⟨tables.streams index, tables.streams (index + 1), saved.revision, saved.hasContinuation, saved.continuation,
    saved.state⟩

def sink (depth : Nat) : SinkTables Row Out :=
  let saved := tables.result
  ⟨tables.streams depth, noOutput, saved.revision, saved.hasContinuation, saved.continuation, saved.state⟩

def withStream (index : Nat) (history : StreamHistory Row) : PipelineTables Row Out :=
  { tables with streams := Function.update tables.streams index history }

def withStage (index : Nat) (after : TransformTables Row Row) : PipelineTables Row Out :=
  { (tables.withStream index after.input).withStream (index + 1) after.output with
    stages := Function.update tables.stages index (checkpointOf after) }

def withSink (depth : Nat) (after : SinkTables Row Out) : PipelineTables Row Out :=
  { tables.withStream depth after.input with result := checkpointOf after }

variable {index other : Nat} (history : StreamHistory Row) (next : TransformTables Row Row) (after : SinkTables Row Out)

@[simp] theorem with_stream_here : (tables.withStream index history).streams index = history :=
  Function.update_self _ _ _

theorem with_stream_elsewhere (apart : other ≠ index) :
    (tables.withStream index history).streams other = tables.streams other :=
  Function.update_of_ne apart _ _

@[simp] theorem with_stage_input : (tables.withStage index next).streams index = next.input := by
  simp [withStage, withStream]

@[simp] theorem with_stage_output : (tables.withStage index next).streams (index + 1) = next.output := by
  simp [withStage, withStream]

theorem with_stage_elsewhere (notInput : other ≠ index) (notOutput : other ≠ index + 1) :
    (tables.withStage index next).streams other = tables.streams other := by
  simp [withStage, withStream, notInput, notOutput]

@[simp] theorem with_stage_own : (tables.withStage index next).stage index = next := by
  simp [stage]
  simp [withStage, checkpointOf]

@[simp] theorem with_sink_input : (tables.withSink index after).streams index = after.input :=
  Function.update_self _ _ _

theorem with_sink_elsewhere (apart : other ≠ index) : (tables.withSink index after).streams other = tables.streams other :=
  Function.update_of_ne apart _ _

theorem with_sink_own (output : after.output = noOutput) : (tables.withSink index after).sink index = after := by
  unfold sink
  rw [with_sink_input, ← output]
  rfl

end PipelineTables

-- What happens around and in the dataflow: the first stream is written, any
-- stream is read by others and collected, and the stages and the Sink step.
inductive PipelineCall (spec : PipelineSpec Row Out) where
  | source (op : StreamOp Row) (other : OtherConsumer (spec.keys 0) op)
  | reader (index : Nat) (op : StreamOp Row) (reads : ReaderOp op) (other : OtherConsumer (spec.keys index) op)
  | stage (index : Nat) (inside : index < spec.depth) (budget : WorkBudget)
  | sink (budget : WorkBudget)

def pipelineStep [DecidableEq Out] (tables : PipelineTables Row Out) :
    PipelineCall spec → Except Fault (PipelineTables Row Out)
  | .source op _ => (historyStep (tables.streams 0) op).map (tables.withStream 0)
  | .reader index op _ _ => (historyStep (tables.streams index) op).map (tables.withStream index)
  | .stage index _ budget =>
      (stepTransform (spec.transform index) (tables.stage index) (spec.keys index) budget).map (tables.withStage index)
  | .sink budget =>
      (stepSink spec.sink (tables.sink spec.depth) (spec.keys spec.depth) budget).map (tables.withSink spec.depth)

def Supplied (tables : PipelineTables Row Out) : PipelineCall spec → Prop
  | .source op _ => ProducerOp (spec.transform 0).scanPlaceholder (tables.streams 0) op ∧ Signed op
  | _ => True

-- Every stage was just attached to its stream, and the result is empty.
structure PipelineRegistered (tables : PipelineTables Row Out) : Prop where
  stages : ∀ index < spec.depth, TransformRegistered (spec.keys index) (tables.stage index)
  sink : SinkRegistered (spec.keys spec.depth) (tables.sink spec.depth)

structure PipelineInvariant [DecidableEq Out] (tables : PipelineTables Row Out) : Prop where
  stages : ∀ index < spec.depth, TransformInvariant (spec.transform index) (spec.keys index) (tables.stage index)
  marked : ∀ index < spec.depth, Marked (spec.transform index) (tables.streams index) (tables.streams (index + 1))
  sink : SinkInvariant spec.sink (spec.keys spec.depth) (tables.sink spec.depth)
  signed : ∀ row ∈ outputRows (tables.streams 0), row.weight ≠ 0

-- How a stream may change while its consumer stays.
def Fed (index : Nat) (before after : StreamHistory Row) : Prop :=
  after = before ∨ ∃ op, OtherConsumer (spec.keys index) op ∧
    ProducerOp (spec.transform index).scanPlaceholder before op ∧ Signed op ∧ historyStep before op = .ok after

theorem reader_fed {index : Nat} {before after : StreamHistory Row} {op : StreamOp Row} (reads : ReaderOp op)
    (other : OtherConsumer (spec.keys index) op) (moved : historyStep before op = .ok after) :
    Fed spec index before after := by
  have free : ProducerOp (spec.transform index).scanPlaceholder before op ∧ Signed op := by
    cases op <;> first | exact ⟨trivial, trivial⟩ | cases reads
  exact .inr ⟨op, other, free.1, free.2, moved⟩

section Keeps

variable [DecidableEq Out] {spec : PipelineSpec Row Out} {tables after : PipelineTables Row Out}

section

variable (good : PipelineInvariant spec tables)

include good

theorem stream_good (index : Nat) (within : index ≤ spec.depth) :
    StreamInvariant (tables.streams index) := by
  rcases Nat.lt_or_eq_of_le within with inside | rfl
  · exact (good.stages index inside).input
  · exact good.sink.input

theorem stream_signed (index : Nat) (within : index ≤ spec.depth) :
    ∀ row ∈ outputRows (tables.streams index), row.weight ≠ 0 := by
  induction index with
  | zero => exact good.signed
  | succ index ih => exact written_signed (good.stages index within) (ih (Nat.le_of_succ_le within))

-- A stage that does not step keeps its invariant while its streams change around it.
theorem stage_beside (index : Nat) (inside : index < spec.depth)
    (fed : Fed spec index (tables.streams index) (after.streams index))
    (drawn : Drawn (tables.streams (index + 1)) (after.streams (index + 1)))
    (same : after.stages index = tables.stages index) :
    TransformInvariant (spec.transform index) (spec.keys index) (after.stage index) ∧
      Marked (spec.transform index) (after.streams index) (after.streams (index + 1)) := by
  have before := good.stages index inside
  have marked := good.marked index inside
  have whole : after.stage index = { tables.stage index with
      input := after.streams index, output := after.streams (index + 1) } := by
    unfold PipelineTables.stage
    rw [same]
  have fedGood : TransformInvariant (spec.transform index) (spec.keys index)
      { tables.stage index with input := after.streams index } ∧
        Marked (spec.transform index) (after.streams index) (tables.streams (index + 1)) := by
    rcases fed with unmoved | ⟨op, other, produces, _, moved⟩
    · rw [unmoved]
      exact ⟨before, marked⟩
    · obtain ⟨more, grown, _⟩ := stored_step produces moved
      exact ⟨transform_source_keeps _ _ _ before op other produces _ moved, marked_input before.input grown marked⟩
  rw [whole]
  rcases drawn with unmoved | ⟨op, reads, moved⟩
  · rw [unmoved]
    exact fedGood
  · refine ⟨transform_reader_keeps _ _ _ fedGood.1 op reads _ moved, ?_⟩
    unfold Marked readRows
    rw [reader_produced reads moved]
    exact fedGood.2

theorem sink_beside (fed : Fed spec spec.depth (tables.streams spec.depth) (after.streams spec.depth))
    (same : after.result = tables.result) :
    SinkInvariant spec.sink (spec.keys spec.depth) (after.sink spec.depth) := by
  have whole : after.sink spec.depth = { tables.sink spec.depth with input := after.streams spec.depth } := by
    unfold PipelineTables.sink
    rw [same]
  rw [whole]
  rcases fed with unmoved | ⟨op, other, produces, signed, moved⟩
  · rw [unmoved]
    exact good.sink
  · exact sink_source_keeps _ _ _ good.sink op other produces signed _ moved

end

omit [DecidableEq Out] in
theorem fed_signed {before after : StreamHistory Row} {index : Nat} (fed : Fed spec index before after)
    (signed : ∀ row ∈ outputRows before, row.weight ≠ 0) : ∀ row ∈ outputRows after, row.weight ≠ 0 := by
  rcases fed with rfl | ⟨op, _, _, isSigned, moved⟩
  · exact signed
  · intro row member
    obtain ⟨chunk, produced, inChunk⟩ := List.mem_flatMap.mp member
    rcases signed_step isSigned moved produced with old | new
    · exact signed row (List.mem_flatMap.mpr ⟨chunk, old, inChunk⟩)
    · exact new row inChunk

omit [DecidableEq Out] in
-- What a stage writes feeds the next one.
theorem wrote_fed {key : ConsumerKey} {index : Nat} {stage next : TransformTables Row Row}
    (wrote : Wrote (spec.transform index) stage next.output) (good : TransformInvariant (spec.transform index) key next)
    (signed : ∀ row ∈ outputRows next.input, row.weight ≠ 0) : Fed spec (index + 1) stage.output next.output := by
  cases wrote with
  | nothing same => exact .inl same
  | data lsn rows follows appended =>
      rcases append_history_cases _ _ _ appended with same | ⟨_, _, isOutput⟩
      · exact .inl same
      · refine .inr ⟨.append _ _ _ _ _ rows, trivial, ⟨rfl, rfl, fun _ => follows⟩, ?_, appended⟩
        intro row member
        refine written_signed good signed row ?_
        rw [isOutput]
        exact List.mem_flatMap.mpr ⟨_, List.mem_append_right _ (List.mem_singleton.mpr rfl), member⟩
  | frontier mark produced kind image appended =>
      refine .inr ⟨.append _ _ _ _ _ [], trivial, ⟨rfl, rfl, fun wrong => by cases wrong⟩, ?_, appended⟩
      intro row member
      cases member

section

variable (good : PipelineInvariant spec tables)

include good

-- Around the one stage that steps, or around none of them.
theorem around_keeps (stepped : Nat) (fed : ∀ index ≠ stepped, Fed spec index (tables.streams index) (after.streams index))
    (drawn : ∀ index ≠ stepped, Drawn (tables.streams (index + 1)) (after.streams (index + 1)))
    (same : ∀ index ≠ stepped, after.stages index = tables.stages index)
    (own : stepped < spec.depth → TransformInvariant (spec.transform stepped) (spec.keys stepped) (after.stage stepped) ∧
      Marked (spec.transform stepped) (after.streams stepped) (after.streams (stepped + 1)))
    (sink : if stepped = spec.depth then SinkInvariant spec.sink (spec.keys spec.depth) (after.sink spec.depth)
      else after.result = tables.result) (signed : ∀ row ∈ outputRows (after.streams 0), row.weight ≠ 0) :
    PipelineInvariant spec after := by
  have stages : ∀ index < spec.depth, TransformInvariant (spec.transform index) (spec.keys index) (after.stage index) ∧
      Marked (spec.transform index) (after.streams index) (after.streams (index + 1)) := by
    intro index inside
    by_cases here : index = stepped
    · subst here
      exact own inside
    · exact stage_beside good index inside (fed index here) (drawn index here) (same index here)
  refine ⟨fun index inside => (stages index inside).1, fun index inside => (stages index inside).2, ?_, signed⟩
  by_cases here : stepped = spec.depth
  · rwa [if_pos here] at sink
  · rw [if_neg here] at sink
    exact sink_beside good (fed spec.depth (Ne.symm here)) sink

-- A call on one stream changes no other.
theorem stream_keeps (index : Nat) (history : StreamHistory Row) (fed : Fed spec index (tables.streams index) history)
    (drawn : index ≠ 0 → Drawn (tables.streams index) history) :
    PipelineInvariant spec (tables.withStream index history) := by
  have fedAt : ∀ other, Fed spec other (tables.streams other) ((tables.withStream index history).streams other) := by
    intro other
    by_cases here : other = index
    · subst here
      simpa using fed
    · exact .inl (PipelineTables.with_stream_elsewhere _ _ here)
  refine around_keeps good (spec.depth + 1) (fun other _ => fedAt other) ?_ (fun _ _ => rfl)
    (fun inside => absurd inside (Nat.not_lt.mpr (Nat.le_succ _))) ?_ (fed_signed (fedAt 0) good.signed)
  · intro other _
    by_cases here : other + 1 = index
    · subst here
      simpa using drawn (Nat.succ_ne_zero other)
    · exact .inl (PipelineTables.with_stream_elsewhere _ _ here)
  · rw [if_neg (Nat.succ_ne_self _)]
    rfl

theorem stage_keeps (index : Nat) (inside : index < spec.depth) (budget : WorkBudget) (next : TransformTables Row Row)
    (ok : stepTransform (spec.transform index) (tables.stage index) (spec.keys index) budget = .ok next) :
    PipelineInvariant spec (tables.withStage index next) := by
  have before := good.stages index inside
  obtain ⟨drawn, wrote⟩ := transform_wrote before ok
  obtain ⟨row, ordinal, stands⟩ := Transform.invariant_stands _ _ _ before
  have taken : transformStep (spec.transform index) (spec.keys index) (tables.stage index) (.step budget) = .ok next := ok
  have free : Produces (spec.transform index) (spec.keys index) (tables.stage index) (.step budget) := trivial
  obtain ⟨_, _, there, _⟩ := call_stands stands free taken
  have sameInput := drawn_produced drawn
  have signed : ∀ row ∈ outputRows next.input, row.weight ≠ 0 := by
    unfold outputRows
    rw [sameInput]
    exact stream_signed good index (Nat.le_of_lt inside)
  refine around_keeps good index ?_ ?_ (fun other apart => Function.update_of_ne apart _ _) ?_ ?_ ?_
  · intro other apart
    by_cases here : other = index + 1
    · subst here
      exact (tables.with_stage_output next).symm ▸ wrote_fed wrote there.good signed
    · exact .inl (tables.with_stage_elsewhere next apart here)
  · intro other apart
    by_cases here : other + 1 = index
    · subst here
      exact (tables.with_stage_input next).symm ▸ drawn
    · exact .inl (tables.with_stage_elsewhere next here (fun same => apart (Nat.succ.inj same)))
  · intro _
    rw [tables.with_stage_own, tables.with_stage_input, tables.with_stage_output]
    exact ⟨there.good, marked_input before.input (sameInput.trans (List.append_nil _).symm)
      (marked_output (stream_good good (index + 1) inside) wrote (good.marked index inside))⟩
  · rw [if_neg (Nat.ne_of_lt inside)]
    rfl
  · by_cases here : 0 = index
    · subst here
      exact (tables.with_stage_input next).symm ▸ signed
    · rw [tables.with_stage_elsewhere next here (Nat.succ_ne_zero index).symm]
      exact good.signed

theorem sink_keeps (budget : WorkBudget) (next : SinkTables Row Out)
    (ok : stepSink spec.sink (tables.sink spec.depth) (spec.keys spec.depth) budget = .ok next) :
    PipelineInvariant spec (tables.withSink spec.depth next) := by
  have drawn := sink_drawn good.sink ok
  have sink := sink_step_keeps spec.sink (spec.keys spec.depth) _ next (.step budget) good.sink trivial ok
  refine around_keeps good spec.depth (fun other apart => .inl (tables.with_sink_elsewhere next apart)) ?_ (fun _ _ => rfl)
    (fun wrong => absurd wrong (Nat.lt_irrefl _)) ?_ ?_
  · intro other _
    by_cases here : other + 1 = spec.depth
    · rw [here, tables.with_sink_input]
      exact drawn
    · exact .inl (tables.with_sink_elsewhere next here)
  · rw [if_pos rfl, tables.with_sink_own next sink.output]
    exact sink
  · by_cases here : 0 = spec.depth
    · rw [here, tables.with_sink_input]
      unfold outputRows
      rw [drawn_produced drawn]
      exact here ▸ good.signed
    · rw [tables.with_sink_elsewhere next here]
      exact good.signed

theorem call_keeps {call : PipelineCall spec} (supplied : Supplied spec tables call)
    (ok : pipelineStep spec tables call = .ok after) : PipelineInvariant spec after := by
  cases call with
  | source op other =>
      obtain ⟨stream, moved, rfl⟩ := except_map_ok ok
      exact stream_keeps good 0 stream (.inr ⟨op, other, supplied.1, supplied.2, moved⟩) (fun wrong => absurd rfl wrong)
  | reader index op reads other =>
      obtain ⟨stream, moved, rfl⟩ := except_map_ok ok
      exact stream_keeps good index stream (reader_fed spec reads other moved) (fun _ => .inr ⟨op, reads, moved⟩)
  | stage index inside budget =>
      obtain ⟨next, moved, rfl⟩ := except_map_ok ok
      exact stage_keeps good index inside budget next moved
  | sink budget =>
      obtain ⟨next, moved, rfl⟩ := except_map_ok ok
      exact sink_keeps good budget next moved

end

theorem pipeline_registered_invariant (registered : PipelineRegistered spec tables) : PipelineInvariant spec tables := by
  obtain ⟨sink, unread⟩ := sink_registered_invariant spec.sink (spec.keys spec.depth) _ registered.sink
  refine ⟨fun index inside => transform_registered_invariant _ _ _ (registered.stages index inside), ?_, sink, ?_⟩
  · intro index inside chunk produced
    obtain ⟨_, _, _, _, _, _, _, isOutput⟩ := (registered.stages index inside).output
    change tables.streams (index + 1) = _ at isOutput
    rw [isOutput] at produced
    cases produced
  · have nothing : (tables.streams 0).produced = [] := by
      rcases Nat.eq_zero_or_pos spec.depth with none | some
      · exact none ▸ unread
      · exact (attached_input (registered.stages 0 some).operator (registered.stages 0 some).input).2.1
    intro row member
    rw [outputRows, nothing] at member
    cases member

end Keeps

-- The rows of a stream up to an LSN, and those beyond it.
def rowsThrough (history : StreamHistory Row) (lsn : Lsn) : List (EffectRow Row) :=
  (history.produced.filter fun chunk => decide (chunk.chunkLsn ≤ lsn)).flatMap EffectChunk.payload

def rowsAfter (history : StreamHistory Row) (lsn : Lsn) : List (EffectRow Row) :=
  (history.produced.filter fun chunk => !decide (chunk.chunkLsn ≤ lsn)).flatMap EffectChunk.payload

-- A frontier parts its stream at its LSN.
theorem frontier_parts {history : StreamHistory Row} (good : StreamInvariant history)
    (operator : history.stream.isSource = false) {chunk : EffectChunk Row} (produced : chunk ∈ history.produced)
    (kind : chunk.chunkKind = .frontier) (empty : chunk.payload = []) :
    readRows history chunk.chunkSeq 0 = rowsThrough history chunk.chunkLsn ∧
      outputRows history = rowsThrough history chunk.chunkLsn ++ rowsAfter history chunk.chunkLsn := by
  obtain ⟨positive, atSeq⟩ := produced_at good produced
  obtain ⟨inside, isChunk⟩ := List.getElem?_eq_some_iff.mp atSeq
  obtain ⟨before, isBefore⟩ : ∃ before, before = history.produced.take (chunk.chunkSeq - 1) := ⟨_, rfl⟩
  obtain ⟨rest, isRest⟩ : ∃ rest, rest = history.produced.drop (chunk.chunkSeq - 1 + 1) := ⟨_, rfl⟩
  have split : history.produced = before ++ chunk :: rest := by
    have onward := List.drop_eq_getElem_cons inside
    rw [isChunk] at onward
    rw [isBefore, isRest, ← onward, List.take_append_drop]
  have rising : (history.produced.map EffectChunk.chunkSeq).Pairwise (· < ·) := by
    rw [good.produced.numbered]
    exact List.pairwise_lt_range'
  rw [List.pairwise_map, split, List.pairwise_append, List.pairwise_cons] at rising
  obtain ⟨_, ⟨later, _⟩, earlier⟩ := rising
  have low : ∀ other ∈ before, other.chunkLsn ≤ chunk.chunkLsn := by
    intro other member
    have inside : other ∈ history.produced := split ▸ List.mem_append_left _ member
    exact (operator_order operator good.produced inside produced (earlier other member chunk List.mem_cons_self)).2 kind
  have high : ∀ other ∈ rest, chunk.chunkLsn < other.chunkLsn := by
    intro other member
    have inside : other ∈ history.produced := split ▸ List.mem_append_right _ (List.mem_cons_of_mem _ member)
    exact (operator_order operator good.produced produced inside (later other member)).1 kind
  have through : rowsThrough history chunk.chunkLsn = before.flatMap EffectChunk.payload := by
    unfold rowsThrough
    rw [split, List.filter_append, List.filter_cons_of_pos (by simp), List.filter_eq_self.mpr (by simpa using low),
      List.filter_eq_nil_iff.mpr (by simpa using high)]
    simp [empty]
  have after : rowsAfter history chunk.chunkLsn = rest.flatMap EffectChunk.payload := by
    unfold rowsAfter
    rw [split, List.filter_append, List.filter_cons_of_neg (by simp), List.filter_eq_nil_iff.mpr (by simpa using low),
      List.filter_eq_self.mpr (by simpa using high), List.nil_append]
  constructor
  · rw [through, isBefore]
    simp [readRows]
  · rw [through, after, outputRows, split]
    simp [empty]

section Consistent

variable [DecidableEq Out] {spec : PipelineSpec Row Out} {tables : PipelineTables Row Out}

omit [DecidableEq Out] in
theorem image_whole (index : Nat) (first second : List (EffectRow Row)) :
    spec.image index (first ++ second) = spec.image index first ++ spec.image index second := by
  induction index with
  | zero => rfl
  | succ index ih => simp only [PipelineSpec.image, ih, image_append]

section

variable (good : PipelineInvariant spec tables) (index : Nat) (within : index ≤ spec.depth)

include good within

theorem stream_frontier :
    (tables.streams index).stream.isSource = false ∧
      ∀ chunk ∈ (tables.streams index).produced, chunk.chunkKind = .frontier → chunk.payload = [] := by
  rcases Nat.lt_or_eq_of_le within with inside | rfl
  · have stage := good.stages index inside
    exact ⟨stage.operator, fun chunk produced => (stage.stored chunk produced).empty⟩
  · exact ⟨good.sink.operator, fun chunk produced => (good.sink.stored chunk produced).counted.empty⟩

-- Each frontier comes from one of the first stream, with the image of what was before it.
theorem frontier_origin {chunk : EffectChunk Row} (produced : chunk ∈ (tables.streams index).produced)
    (kind : chunk.chunkKind = .frontier) :
    ∃ mark ∈ (tables.streams 0).produced, mark.chunkKind = .frontier ∧ mark.chunkLsn = chunk.chunkLsn ∧
      readRows (tables.streams index) chunk.chunkSeq 0 = spec.image index (readRows (tables.streams 0) mark.chunkSeq 0) := by
  induction index generalizing chunk with
  | zero => exact ⟨chunk, produced, kind, rfl, rfl⟩
  | succ index ih =>
      obtain ⟨mark, inside, isFrontier, same, image⟩ := good.marked index within chunk produced kind
      obtain ⟨origin, first, isOrigin, sameOrigin, before⟩ := ih (Nat.le_of_succ_le within) inside isFrontier
      exact ⟨origin, first, isOrigin, sameOrigin.trans same, by rw [image, before]; rfl⟩

theorem written_prefix :
    outputRows (tables.streams index) <+: spec.image index (outputRows (tables.streams 0)) := by
  induction index with
  | zero => exact List.prefix_refl _
  | succ index ih =>
      obtain ⟨row, _, _, _, _, ordinal, reading⟩ := (good.stages index within).consumer
      have read := (read_rows_leading (tables.streams index) row.nextChunkSeq ordinal).trans (ih (Nat.le_of_succ_le within))
      obtain ⟨rest, whole⟩ := read
      refine ⟨(spec.transform index).image rest, ?_⟩
      change outputRows (tables.stage index).output ++ _ = (spec.transform index).image _
      rw [reading.written, ← whole, image_append]
      rfl

end

-- The result against the first stream: it holds the bag of what the Sink has
-- applied, which is the query over everything up to each frontier it has passed,
-- and then a part of the query over what follows.
structure Consistent (spec : PipelineSpec Row Out) (tables : PipelineTables Row Out) (row : StreamConsumer) : Prop where
  held : ∀ item, (tables.result.state.count item : Int) = weight (appliedWeights spec.sink (tables.streams spec.depth)
    row.nextChunkSeq (Sink.ordinalOf (tables.sink spec.depth)) (remainingOf (tables.sink spec.depth))) item
  through : ∀ chunk ∈ (tables.streams spec.depth).produced, chunk.chunkKind = .frontier →
    chunk.chunkSeq < row.nextChunkSeq → ∃ later,
      readRows (tables.streams spec.depth) row.nextChunkSeq (Sink.ordinalOf (tables.sink spec.depth)) =
        spec.image spec.depth (rowsThrough (tables.streams 0) chunk.chunkLsn) ++ later ∧
      later <+: spec.image spec.depth (rowsAfter (tables.streams 0) chunk.chunkLsn)
  snapshot : ∀ chunk ∈ (tables.streams spec.depth).produced, chunk.chunkKind = .frontier →
    row.nextChunkSeq = chunk.chunkSeq + 1 → tables.result.continuation = none → ∀ item,
      (tables.result.state.count item : Int) =
        weight ((spec.image spec.depth (rowsThrough (tables.streams 0) chunk.chunkLsn)).map (effectOf spec.sink)) item

theorem passed_through (good : PipelineInvariant spec tables) {chunk : EffectChunk Row}
    (produced : chunk ∈ (tables.streams spec.depth).produced) (kind : chunk.chunkKind = .frontier) :
    readRows (tables.streams spec.depth) chunk.chunkSeq 0 =
        spec.image spec.depth (rowsThrough (tables.streams 0) chunk.chunkLsn) ∧
      outputRows (tables.streams spec.depth) <+: spec.image spec.depth (rowsThrough (tables.streams 0) chunk.chunkLsn) ++
        spec.image spec.depth (rowsAfter (tables.streams 0) chunk.chunkLsn) := by
  obtain ⟨mark, first, isMark, same, before⟩ := frontier_origin good spec.depth (Nat.le_refl _) produced kind
  obtain ⟨operator, empty⟩ := stream_frontier good 0 (Nat.zero_le _)
  obtain ⟨read, whole⟩ := frontier_parts (stream_good good 0 (Nat.zero_le _)) operator first isMark
    (empty mark first isMark)
  rw [same] at read whole
  refine ⟨before.trans (congrArg (spec.image spec.depth) read), ?_⟩
  rw [← image_whole, ← whole]
  exact written_prefix good spec.depth (Nat.le_refl _)

theorem pipeline_consistent (spec : PipelineSpec Row Out) (start tables : PipelineTables Row Out)
    (registered : PipelineRegistered spec start) (ran : Path (pipelineStep spec) (Supplied spec) start tables) :
    ∃ row, (tables.streams spec.depth).stream.findConsumer (spec.keys spec.depth) = some row ∧
      Consistent spec tables row := by
  have good := path_invariant (PipelineInvariant spec) (fun _ _ _ before supplied taken => call_keeps before supplied taken)
    start tables (pipeline_registered_invariant registered) ran
  obtain ⟨row, continuation, stands⟩ := Sink.invariant_stands spec.sink (spec.keys spec.depth) _ good.sink
  have held := stands_held spec.sink (spec.keys spec.depth) _ row continuation stands
  refine ⟨row, stands.found, held, ?_, ?_⟩
  · intro chunk produced kind passed
    obtain ⟨before, whole⟩ := passed_through good produced kind
    have read := (read_rows_leading (tables.streams spec.depth) row.nextChunkSeq
      (Sink.ordinalOf (tables.sink spec.depth))).trans whole
    have began : readRows (tables.streams spec.depth) chunk.chunkSeq 0 <+:
        readRows (tables.streams spec.depth) row.nextChunkSeq (Sink.ordinalOf (tables.sink spec.depth)) := by
      obtain ⟨rest, more⟩ := List.take_prefix_take_left (l := (tables.streams spec.depth).produced)
        (Nat.sub_le_sub_right (Nat.le_of_lt passed) 1)
      unfold readRows
      rw [← more, List.take_zero, List.append_nil, List.flatMap_append, List.append_assoc]
      exact List.prefix_append _ _
    rw [before] at began
    obtain ⟨later, isLater⟩ := began
    exact ⟨later, isLater.symm, (List.prefix_append_right_inj _).mp (isLater ▸ read)⟩
  · intro chunk produced kind passed saved item
    have start : Sink.ordinalOf (tables.sink spec.depth) = 0 ∧ remainingOf (tables.sink spec.depth) = none := by
      simp [Sink.ordinalOf, remainingOf, PipelineTables.sink, saved]
    have past := read_rows_past (stream_good good spec.depth (Nat.le_refl _)) produced 0
    rw [(stream_frontier good spec.depth (Nat.le_refl _)).2 chunk produced kind, List.drop_nil, List.append_nil,
      (passed_through good produced kind).1] at past
    refine (held item).trans ?_
    rw [start.1, start.2, applied_start, weightsBefore, passed]
    exact congrArg (fun rows => weight (rows.map (effectOf spec.sink)) item) past

end Consistent

-- One Filter before a Sink.
def evenPipeline : PipelineSpec Nat Nat :=
  ⟨1, fun _ => .filter (fun value => some (decide (value % 2 = 0))) id, id, fun _ => 1,
    fun index => ⟨900, index + 1, 0⟩⟩

def registeredPipeline : PipelineTables Nat Nat where
  streams := fun index =>
    ⟨{ freshStream smallLimits (index + 2) (.operator 900 index) with
      consumers := [⟨⟨900, index + 1, 0⟩, 1, 0, 0⟩] }, none, []⟩
  stages := fun _ => ⟨0, false, none, ()⟩
  result := ⟨0, false, none, []⟩

theorem pipeline_registered : PipelineRegistered evenPipeline registeredPipeline where
  stages := by
    intro index inside
    obtain rfl := Nat.lt_one_iff.mp inside
    exact ⟨⟨⟨freshStream smallLimits 2 (.operator 900 0), none, []⟩, ⟨true, false⟩, 0, .start _ ⟨_, _, _, _, rfl⟩, rfl⟩,
      rfl, Nat.succ_pos 1, ⟨smallLimits, 3, 900, 1, [⟨⟨900, 2, 0⟩, 1, 0, 0⟩], by decide, by simp, rfl⟩, rfl, rfl⟩
  sink := ⟨⟨⟨freshStream smallLimits 3 (.operator 900 1), none, []⟩, ⟨true, false⟩, 0, .start _ ⟨_, _, _, _, rfl⟩, rfl⟩,
    rfl, Nat.succ_pos 2, rfl, rfl, rfl, rfl⟩

-- Two rows arrive, a frontier and another row; the first two rows are filtered
-- and reach the result.
def fedPipeline : PipelineTables Nat Nat :=
  attempts (pipelineStep evenPipeline) registeredPipeline [.source (.append 1 .data 2 18 10 [⟨1, 2⟩, ⟨1, 3⟩]) trivial,
    .source (.append 2 .frontier 0 0 12 []) trivial, .source (.append 3 .data 1 9 15 [⟨1, 4⟩]) trivial]

def servedPipeline : PipelineTables Nat Nat :=
  attempts (pipelineStep evenPipeline) fedPipeline
    [.stage 0 Nat.one_pos narrowBudget, .stage 0 Nat.one_pos narrowBudget, .sink narrowBudget, .sink narrowBudget]

theorem pipeline_served : Path (pipelineStep evenPipeline) (Supplied evenPipeline) registeredPipeline servedPipeline := by
  apply path_attempts
  · intro label member tables
    simp only [List.mem_cons, List.not_mem_nil, or_false] at member
    obtain rfl | rfl | rfl | rfl := member <;> trivial
  · exact .next _ _ (.source (.append 3 .data 1 9 15 [⟨1, 4⟩]) trivial)
      (.next _ _ (.source (.append 2 .frontier 0 0 12 []) trivial)
        (.next _ _ (.source (.append 1 .data 2 18 10 [⟨1, 2⟩, ⟨1, 3⟩]) trivial) .here
          ⟨⟨rfl, rfl, fun _ => rfl⟩, by simp [Signed]⟩ rfl) ⟨⟨rfl, rfl, fun _ => rfl⟩, by simp [Signed]⟩ rfl)
      ⟨⟨rfl, rfl, fun _ => rfl⟩, by simp [Signed]⟩ rfl

theorem pipeline_consistent_served : servedPipeline.result.state = [2] ∧ ∃ row,
    (servedPipeline.streams 1).stream.findConsumer ⟨900, 2, 0⟩ = some row ∧ row.nextChunkSeq = 3 ∧
      Consistent evenPipeline servedPipeline row := by
  obtain ⟨row, found, consistent⟩ := pipeline_consistent evenPipeline registeredPipeline servedPipeline pipeline_registered
    pipeline_served
  have isRow : (servedPipeline.streams 1).stream.findConsumer ⟨900, 2, 0⟩ = some ⟨⟨900, 2, 0⟩, 3, 0, 12⟩ := by decide
  obtain rfl := Option.some.inj (found.symm.trans isRow)
  exact ⟨by decide, _, isRow, rfl, consistent⟩

end Shiba.Runtime.Pipeline
