import Shiba.Linear.FrontierSteps
import Shiba.Linear.Selection

set_option autoImplicit false

namespace Shiba.Linear.Transform

open Transition Shiba.Stream Shiba.Execution

variable {Row Out : Type}

-- What happens around one Filter or Project: its input stream is written, its
-- output is read and collected, and the stage steps.
inductive TransformCall (Row Out : Type) (key : ConsumerKey) where
  | source (op : StreamOp Row) (other : OtherConsumer key op)
  | reader (op : StreamOp Out) (reads : ReaderOp op)
  | step (budget : WorkBudget)

def transformStep (spec : TransformSpec Row Out) (key : ConsumerKey) (tables : TransformTables Row Out) :
    TransformCall Row Out key → Except Fault (TransformTables Row Out)
  | .source op _ => (historyStep tables.input op).map fun input => { tables with input }
  | .reader op _ => (historyStep tables.output op).map fun output => { tables with output }
  | .step budget => stepTransform spec tables key budget

-- A producing stage counts the rows and bytes of what it stores, and its step
-- context refuses data
def ProducerOp (spec : ScanSpec Row Out) (history : StreamHistory Row) : StreamOp Row → Prop
  | .append _ kind rowCount payloadBytes chunkLsn payload =>
      rowCount = payload.length ∧ payloadBytes = spec.sourceBytes payload ∧
        (kind = .data → behind history.stream.latestDataLsn chunkLsn = false)
  | _ => True

def Produces (spec : TransformSpec Row Out) (key : ConsumerKey) (tables : TransformTables Row Out) :
    TransformCall Row Out key → Prop
  | .source op _ => ProducerOp spec.scanPlaceholder tables.input op
  | _ => True

-- A reachable operator stream that the stage was just attached to, and a fresh
-- output stream with its readers.
structure TransformRegistered (key : ConsumerKey) (tables : TransformTables Row Out) : Prop where
  input : ∃ before facts activationLsn, Reachable historyStep Fresh before ∧
    historyStep before (.attach facts key activationLsn) = .ok tables.input
  operator : tables.input.stream.isSource = false
  streamId : 0 < tables.input.stream.streamId
  output : ∃ limits streamId resultOid stageId consumers, 0 < limits.targetChunkRows ∧ consumers ≠ [] ∧
    tables.output = ⟨{ freshStream limits streamId (.operator resultOid stageId) with consumers }, none, []⟩
  continuation : tables.continuation = none
  checkpoint : tables.hasContinuation = false

structure StoredChunk (spec : ScanSpec Row Out) (chunk : EffectChunk Row) : Prop where
  rows : chunk.rowCount = chunk.payload.length
  bytes : chunk.payloadBytes = spec.sourceBytes chunk.payload
  present : chunk.chunkKind = .data → chunk.payload ≠ []
  empty : chunk.chunkKind = .frontier → chunk.payload = []

-- A data chunk within its stream's targets; a single row may be oversized.
structure WithinTarget (spec : ScanSpec Row Out) (limits : StreamLimits) (chunk : EffectChunk Out) : Prop where
  rows : chunk.payload.length ≤ limits.targetChunkRows
  bytes : spec.outputBytes chunk.payload ≤ limits.targetChunkBytes ∨ chunk.payload.length = 1

def outputRows (history : StreamHistory Out) : List (EffectRow Out) := history.produced.flatMap EffectChunk.payload

-- The rows of a stream before a position: whole chunks, then rows of the next.
def readRows (history : StreamHistory Row) (next ordinal : Nat) : List (EffectRow Row) :=
  (history.produced.take (next - 1)).flatMap EffectChunk.payload ++
    ((history.produced[next - 1]?.map EffectChunk.payload).getD []).take ordinal

def dataCursor (streamId chunkSeq ordinal : Nat) : Option TransformContinuation :=
  if ordinal = 0 then none else some ⟨streamId, chunkSeq, ordinal⟩

-- The stage has read its input up to a row of the chunk at its cursor, and
-- written the image of just that.
structure Reading (spec : TransformSpec Row Out) (tables : TransformTables Row Out) (row : StreamConsumer)
    (ordinal : Nat) : Prop where
  continuation : tables.continuation = dataCursor tables.input.stream.streamId row.nextChunkSeq ordinal
  inside : ordinal ≠ 0 → ∃ chunk ∈ tables.input.produced, chunk.chunkSeq = row.nextChunkSeq ∧
    chunk.chunkKind = .data ∧ ordinal < chunk.rowCount
  written : outputRows tables.output = spec.image (readRows tables.input row.nextChunkSeq ordinal)
  targets : ∀ chunk ∈ tables.output.produced,
    WithinTarget spec.scanPlaceholder tables.output.stream.toStreamLimits chunk
  published : ∀ lsn, tables.output.stream.publishedFrontierLsn = some lsn → ∃ chunk ∈ tables.input.produced,
    chunk.chunkKind = .frontier ∧ chunk.chunkSeq < row.nextChunkSeq ∧ chunk.chunkLsn = lsn
  latest : ∀ lsn, tables.output.stream.latestDataLsn = some lsn → ∃ chunk ∈ tables.input.produced,
    chunk.chunkKind = .data ∧ chunk.chunkSeq ≤ row.nextChunkSeq ∧ chunk.chunkLsn = lsn

structure TransformInvariant (spec : TransformSpec Row Out) (key : ConsumerKey) (tables : TransformTables Row Out) :
    Prop where
  input : StreamInvariant tables.input
  operator : tables.input.stream.isSource = false
  streamId : 0 < tables.input.stream.streamId
  stored : ∀ chunk ∈ tables.input.produced, StoredChunk spec.scanPlaceholder chunk
  causal : ∀ a ∈ tables.input.produced, ∀ b ∈ tables.input.produced, a.chunkKind = .data → b.chunkKind = .data →
    a.chunkSeq ≤ b.chunkSeq → a.chunkLsn ≤ b.chunkLsn
  output : OutputShape tables.output.stream
  checkpoint : tables.hasContinuation = tables.continuation.isSome
  consumer : ∃ row ∈ tables.input.stream.consumers, row.consumer = key ∧ 1 ≤ row.nextChunkSeq ∧ row.activationLsn = 0 ∧
    ∃ ordinal, Reading spec tables row ordinal

theorem stored_step {spec : ScanSpec Row Out} {history after : StreamHistory Row} {op : StreamOp Row}
    (produces : ProducerOp spec history op) (ok : historyStep history op = .ok after) :
    ∃ more, after.produced = history.produced ++ more ∧
      (∀ chunk ∈ more, StoredChunk spec chunk ∧
        (chunk.chunkKind = .data → behind history.stream.latestDataLsn chunk.chunkLsn = false)) ∧ more.length ≤ 1 := by
  cases op with
  | append expected kind rowCount payloadBytes chunkLsn payload =>
      rcases append_history_cases rowCount payloadBytes payload ok with
        rfl | ⟨_, fits, rfl⟩
      · exact ⟨[], by simp, by simp, by simp⟩
      · obtain ⟨rows, bytes, follows⟩ := produces
        refine ⟨_, rfl, ?_, Nat.le_refl 1⟩
        intro chunk member
        obtain rfl := List.mem_singleton.mp member
        refine ⟨⟨rows, bytes, ?_, ?_⟩, follows⟩
        · intro isData
          obtain rfl : kind = .data := isData
          simp only [resourcesFit, Bool.and_eq_true, decide_eq_true_eq, rows] at fits
          exact List.length_pos_iff.mp fits.1.1.1
        · intro isFrontier
          obtain rfl : kind = .frontier := isFrontier
          simp only [resourcesFit, Bool.and_eq_true, decide_eq_true_eq, rows] at fits
          exact List.length_eq_zero_iff.mp fits.1
  | attach facts consumer activationLsn | advance consumer move | collect chunkLimit rowLimit byteLimit =>
      obtain ⟨stream, made, rfl⟩ := except_map_ok ok
      exact ⟨[], by simp, by simp, by simp⟩
  | publish lsn | dropResult resultOid =>
      obtain rfl := Except.ok.inj ok
      exact ⟨[], by simp, by simp, by simp⟩

-- Data stays in causal order when a producer writes it.
theorem causal_step (spec : ScanSpec Row Out) (history after : StreamHistory Row) (op : StreamOp Row)
    (good : StreamInvariant history) (produces : ProducerOp spec history op) (ok : historyStep history op = .ok after)
    (before : ∀ a ∈ history.produced, ∀ b ∈ history.produced, a.chunkKind = .data → b.chunkKind = .data →
      a.chunkSeq ≤ b.chunkSeq → a.chunkLsn ≤ b.chunkLsn) :
    ∀ a ∈ after.produced, ∀ b ∈ after.produced, a.chunkKind = .data → b.chunkKind = .data →
      a.chunkSeq ≤ b.chunkSeq → a.chunkLsn ≤ b.chunkLsn := by
  obtain ⟨more, grown, fresh, single⟩ := stored_step produces ok
  have kept := invariant_step good ok
  intro a aMember b bMember aData bData order
  rw [grown] at aMember bMember
  rcases List.mem_append.mp bMember with bOld | bNew
  · rcases List.mem_append.mp aMember with aOld | aNew
    · exact before a aOld b bOld aData bData order
    · obtain ⟨aSeq, aAt⟩ := produced_at kept (grown ▸ aMember)
      obtain ⟨bSeq, bAt⟩ := produced_at good bOld
      have inside := (List.getElem?_eq_some_iff.mp bAt).1
      have outside : history.produced.length ≤ a.chunkSeq - 1 := by
        have numbers := kept.produced.numbered
        rw [grown, List.map_append, good.produced.numbered, List.length_append, ← List.range'_append_1,
          List.append_cancel_left_eq] at numbers
        have inRange : a.chunkSeq ∈ more.map EffectChunk.chunkSeq := List.mem_map_of_mem aNew
        rw [numbers, List.mem_range'_1] at inRange
        omega
      omega
  · rcases List.mem_append.mp aMember with aOld | aNew
    · obtain ⟨latest, isLatest, within⟩ := good.produced.data a aOld aData
      have follows := (fresh b bNew).2 bData
      rw [isLatest, behind_some, decide_eq_false_iff_not] at follows
      exact Nat.le_trans within (Nat.le_of_not_lt follows)
    · have same : a = b := by
        obtain ⟨only, isOnly⟩ : ∃ only, more = [only] := by
          cases more with
          | nil => cases aNew
          | cons only rest =>
              refine ⟨only, ?_⟩
              rw [List.length_cons] at single
              rw [List.length_eq_zero_iff.mp (Nat.le_zero.mp (Nat.le_of_succ_le_succ single))]
        rw [isOnly] at aNew bNew
        rw [List.mem_singleton.mp aNew, List.mem_singleton.mp bNew]
      rw [same]

-- What was read does not change when the stream grows.
theorem read_rows_grow (history : StreamHistory Row) (more : List (EffectChunk Row)) (grown : StreamHistory Row)
    (isGrown : grown.produced = history.produced ++ more) (next ordinal : Nat)
    (within : next ≤ history.produced.length + 1) (inside : ordinal ≠ 0 → next ≤ history.produced.length)
    (first : 1 ≤ next) : readRows grown next ordinal = readRows history next ordinal := by
  unfold readRows
  rw [isGrown, List.take_append_of_le_length (by omega)]
  by_cases start : ordinal = 0
  · rw [start, List.take_zero, List.take_zero]
  · have low := inside start
    rw [List.getElem?_append_left (by omega)]

section Around

variable (spec : TransformSpec Row Out) (key : ConsumerKey) (tables : TransformTables Row Out)
  (good : TransformInvariant spec key tables)

include good

section

variable {output : StreamHistory Out} {ordinal : Nat} {op : StreamOp Out} {row : StreamConsumer}

-- Where the stage stands does not change when its input grows.
theorem source_reading {op : StreamOp Row} (produces : ProducerOp spec.scanPlaceholder tables.input op)
    {input : StreamHistory Row} (ok : historyStep tables.input op = .ok input) (member : row ∈ tables.input.stream.consumers)
    (first : 1 ≤ row.nextChunkSeq) (reading : Reading spec tables row ordinal) :
    Reading spec { tables with input := input } row ordinal := by
  have kept := stream_step_keeps ok
  obtain ⟨more, grown, _, _⟩ := stored_step produces ok
  have within := (good.input.consumers row member).within
  have length := good.input.produced.next
  have sameRows : readRows input row.nextChunkSeq ordinal = readRows tables.input row.nextChunkSeq ordinal := by
    apply read_rows_grow tables.input more input grown row.nextChunkSeq ordinal (by omega) ?_ first
    intro started
    obtain ⟨chunk, produced, atCursor, _⟩ := reading.inside started
    have below := produced_below tables.input good.input.produced chunk produced
    omega
  refine ⟨?_, ?_, reading.written.trans (congrArg spec.image sameRows.symm), reading.targets, ?_, ?_⟩
  · rw [kept.streamId]
    exact reading.continuation
  · intro started
    obtain ⟨chunk, produced, rest⟩ := reading.inside started
    exact ⟨chunk, kept.produced chunk produced, rest⟩
  · intro lsn isPublished
    obtain ⟨chunk, produced, rest⟩ := reading.published lsn isPublished
    exact ⟨chunk, kept.produced chunk produced, rest⟩
  · intro lsn isLatest
    obtain ⟨chunk, produced, rest⟩ := reading.latest lsn isLatest
    exact ⟨chunk, kept.produced chunk produced, rest⟩

theorem transform_source_keeps (op : StreamOp Row) (other : OtherConsumer key op)
    (produces : ProducerOp spec.scanPlaceholder tables.input op) (input : StreamHistory Row)
    (ok : historyStep tables.input op = .ok input) : TransformInvariant spec key { tables with input := input } := by
  have kept := stream_step_keeps ok
  obtain ⟨more, grown, fresh, _⟩ := stored_step produces ok
  obtain ⟨row, member, named, first, flat, ordinal, reading⟩ := good.consumer
  exact {
    input := invariant_step good.input ok
    operator := by
      have operator := good.operator
      unfold EffectStream.isSource at operator ⊢
      rwa [kept.producer]
    streamId := by
      rw [kept.streamId]
      exact good.streamId
    stored := by
      intro chunk chunkMember
      rw [grown] at chunkMember
      rcases List.mem_append.mp chunkMember with old | new
      · exact good.stored chunk old
      · exact (fresh chunk new).1
    causal := causal_step spec.scanPlaceholder tables.input input op good.input produces ok good.causal
    output := good.output
    checkpoint := good.checkpoint
    consumer := ⟨row, consumer_kept other ok member named, named, first, flat, ordinal,
      source_reading spec key tables good produces ok member first reading⟩ }

omit good in
theorem reader_produced {history : StreamHistory Out} (reads : ReaderOp op) (ok : historyStep history op = .ok output) :
    output.produced = history.produced := by
  cases op with
  | append expected kind rowCount payloadBytes chunkLsn payload => cases reads
  | attach facts consumer activationLsn => cases reads
  | advance consumer move | collect chunkLimit rowLimit byteLimit =>
      obtain ⟨stream, made, rfl⟩ := except_map_ok ok
      rfl
  | publish lsn => cases reads
  | dropResult resultOid => cases reads

omit good in
theorem reader_reading (reads : ReaderOp op) (ok : historyStep tables.output op = .ok output)
    (reading : Reading spec tables row ordinal) : Reading spec { tables with output := output } row ordinal := by
  have kept := reader_op_keeps reads ok
  have sameProduced := reader_produced reads ok
  refine ⟨reading.continuation, reading.inside, ?_, ?_, ?_, ?_⟩
  · rw [← reading.written, outputRows, sameProduced]
    rfl
  · intro chunk produced
    rw [sameProduced] at produced
    rw [kept.limits]
    exact reading.targets chunk produced
  · intro lsn isPublished
    exact reading.published lsn (kept.published.symm.trans isPublished)
  · intro lsn isLatest
    exact reading.latest lsn (kept.latest.symm.trans isLatest)

end

theorem transform_reader_keeps (op : StreamOp Out) (reads : ReaderOp op) (output : StreamHistory Out)
    (ok : historyStep tables.output op = .ok output) : TransformInvariant spec key { tables with output := output } := by
  have kept := reader_op_keeps reads ok
  obtain ⟨row, member, named, first, flat, ordinal, reading⟩ := good.consumer
  exact ⟨good.input, good.operator, good.streamId, good.stored, good.causal, output_shape_kept _ _ kept good.output,
    good.checkpoint, row, member, named, first, flat, ordinal,
    reader_reading spec tables reads ok reading⟩

end Around

theorem transform_registered_invariant (spec : TransformSpec Row Out) (key : ConsumerKey)
    (tables : TransformTables Row Out) (registered : TransformRegistered key tables) :
    TransformInvariant spec key tables := by
  obtain ⟨kept, nothing, member⟩ := attached_input registered.operator registered.input
  obtain ⟨limits, streamId, resultOid, stageId, consumers, target, watched, output⟩ := registered.output
  refine ⟨kept, registered.operator, registered.streamId, ?_, ?_, ?_, ?_, ⟨key, 1, 0, 0⟩, member, rfl, Nat.le_refl 1, rfl, 0,
    ?_, ?_, ?_, ?_, ?_, ?_⟩
  · rw [nothing]
    intro chunk inside
    cases inside
  · rw [nothing]
    intro a inside
    cases inside
  · rw [output]
    exact ⟨rfl, watched, Nat.le_refl 1, target⟩
  · rw [registered.checkpoint, registered.continuation]
    rfl
  · rw [registered.continuation]
    rfl
  · intro started
    exact absurd rfl started
  · simp [readRows, nothing, output, outputRows]
  · rw [output]
    intro chunk member
    cases member
  · rw [output]
    intro lsn isPublished
    cases isPublished
  · rw [output]
    intro lsn isLatest
    cases isLatest

end Shiba.Linear.Transform
