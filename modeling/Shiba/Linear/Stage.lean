import Shiba.Linear.Pages
import Shiba.Execution.Operations

set_option autoImplicit false

namespace Shiba.Linear

open Transition Shiba.Stream Shiba.Execution

variable {Row Out : Type}

-- The publisher counts the rows and bytes of what it stores.
def CountedOp (spec : ScanSpec Row Out) : StreamOp Row → Prop
  | .append _ _ rowCount payloadBytes _ payload => rowCount = payload.length ∧ payloadBytes = spec.sourceBytes payload
  | _ => True

-- Only the stage itself moves its own cursor, and its dataflow stays.
def OtherConsumer (key : ConsumerKey) : StreamOp Row → Prop
  | .advance consumer _ => consumer ≠ key
  | .dropResult resultOid => resultOid ≠ key.resultOid
  | _ => True

def ReaderOp : StreamOp Out → Prop
  | .advance _ _ => True
  | .collect _ _ _ => True
  | _ => False

-- What happens around one Scan: the source stream and its generation's
-- frontier move, the output is read and collected, and the stage steps.
inductive ScanCall (spec : ScanSpec Row Out) (key : ConsumerKey) where
  | source (op : StreamOp Row) (counted : CountedOp spec op) (other : OtherConsumer key op)
  | reader (op : StreamOp Out) (reads : ReaderOp op)
  | step (budget : WorkBudget)

def scanStep (spec : ScanSpec Row Out) (key : ConsumerKey) (tables : ScanTables Row Out) :
    ScanCall spec key → Except Fault (ScanTables Row Out)
  | .source op _ _ => (historyStep tables.input op).map fun input => { tables with input }
  | .reader op _ => (historyStep tables.output op).map fun output => { tables with output }
  | .step budget => stepScan spec tables key budget

-- A reachable source stream that the stage was just attached to, a fresh output
-- stream with its readers, and the spool of the activation snapshot.
structure ScanRegistered (spec : ScanSpec Row Out) (key : ConsumerKey) (tables : ScanTables Row Out) : Prop where
  input : ∃ fresh before facts activationLsn, Fresh fresh ∧ Path historyStep (fun _ op => CountedOp spec op) fresh before ∧
    historyStep before (.attach facts key activationLsn) = .ok tables.input
  source : ∃ slotGeneration, tables.input.stream.producer = .source slotGeneration spec.sourceOid
  streamId : 0 < tables.input.stream.streamId
  output : ∃ limits streamId resultOid stageId consumers, 0 < limits.targetChunkRows ∧ consumers ≠ [] ∧
    tables.output = ⟨{ freshStream limits streamId (.operator resultOid stageId) with consumers }, none, []⟩
  continuation : tables.continuation = some
    { phase := .bootstrap, inputStreamId := tables.input.stream.streamId, nextBootstrapSeq := some 1 }
  checkpoint : tables.hasContinuation = true
  spool : tables.state.map Prod.fst = List.range' 1 tables.state.length

structure CountedChunk (spec : ScanSpec Row Out) (chunk : EffectChunk Row) : Prop where
  rows : chunk.rowCount = chunk.payload.length
  bytes : chunk.payloadBytes = spec.sourceBytes chunk.payload
  present : chunk.payload ≠ []

-- While the snapshot is copied, nothing but it was written.
structure Booting (tables : ScanTables Row Out) (row : StreamConsumer) : Prop where
  flat : row.consumedFrontierLsn = row.activationLsn
  unpublished : tables.output.stream.publishedFrontierLsn = none
  latest : ∀ lsn, tables.output.stream.latestDataLsn = some lsn → lsn ≤ row.activationLsn

-- Later the output frontier is the consumed one, and the output data comes from
-- the snapshot or from chunks up to the cursor.
structure Live (tables : ScanTables Row Out) (row : StreamConsumer) : Prop where
  published : tables.output.stream.publishedFrontierLsn = some row.consumedFrontierLsn
  latest : ∀ lsn, tables.output.stream.latestDataLsn = some lsn → lsn ≤ row.activationLsn ∨
    ∃ chunk ∈ tables.input.produced, chunk.chunkSeq ≤ row.nextChunkSeq ∧ lsn ≤ chunk.chunkLsn

-- A frontier a live stage has to reach: above its own, complete, and covering
-- its output.
structure FrontierDue (tables : ScanTables Row Out) (row : StreamConsumer) (frontier : Lsn) : Prop where
  live : Live tables row
  risen : row.consumedFrontierLsn < frontier
  passed : Passed tables.input row.nextChunkSeq frontier
  covers : behind tables.output.stream.latestDataLsn frontier = false

inductive PhaseInvariant (tables : ScanTables Row Out) (row : StreamConsumer) : Option ScanContinuation → Prop where
  | bootstrap (next : Nat) (positive : 0 < next) (booting : Booting tables row)
      (spool : tables.state.map Prod.fst = List.range' next tables.state.length) :
      PhaseInvariant tables row (some
        { phase := .bootstrap, inputStreamId := tables.input.stream.streamId, nextBootstrapSeq := some next })
  | snapshotFrontier (booting : Booting tables row) :
      PhaseInvariant tables row (some
        { phase := .snapshotFrontier
          inputStreamId := tables.input.stream.streamId
          pendingFrontierLsn := some row.activationLsn })
  | idle (live : Live tables row) : PhaseInvariant tables row none
  | data (live : Live tables row) (chunk : EffectChunk Row) (produced : chunk ∈ tables.input.produced)
      (atCursor : chunk.chunkSeq = row.nextChunkSeq) (ordinal : Nat) (started : 0 < ordinal)
      (inside : ordinal < chunk.rowCount) :
      PhaseInvariant tables row (some (dataContinuation tables.input.stream.streamId row.nextChunkSeq ordinal))
  | sourceFrontier (frontier : Lsn) (due : FrontierDue tables row frontier) :
      PhaseInvariant tables row (some (frontierContinuation tables.input.stream.streamId frontier))

structure OutputShape (stream : EffectStream Out) : Prop where
  operator : stream.isSource = false
  watched : stream.consumers ≠ []
  numbered : 1 ≤ stream.nextChunkSeq
  target : 0 < stream.targetChunkRows

structure ScanInvariant (spec : ScanSpec Row Out) (key : ConsumerKey) (tables : ScanTables Row Out) : Prop where
  input : StreamInvariant tables.input
  source : ∃ slotGeneration, tables.input.stream.producer = .source slotGeneration spec.sourceOid
  streamId : 0 < tables.input.stream.streamId
  counted : ∀ chunk ∈ tables.input.produced, CountedChunk spec chunk
  output : OutputShape tables.output.stream
  checkpoint : tables.hasContinuation = tables.continuation.isSome
  consumer : ∃ row ∈ tables.input.stream.consumers, row.consumer = key ∧ 1 ≤ row.nextChunkSeq ∧
    row.activationLsn ≤ row.consumedFrontierLsn ∧ PhaseInvariant tables row tables.continuation

-- What every call on a stream keeps.
structure StreamKept (before after : StreamHistory Row) : Prop where
  producer : after.stream.producer = before.stream.producer
  streamId : after.stream.streamId = before.stream.streamId
  produced : ∀ chunk ∈ before.produced, chunk ∈ after.produced

theorem stream_step_keeps {history after : StreamHistory Row} {op : StreamOp Row} (ok : historyStep history op = .ok after) :
    StreamKept history after := by
  cases op with
  | append expected kind rowCount payloadBytes chunkLsn payload =>
      rcases append_history_cases rowCount payloadBytes payload ok with
        rfl | ⟨_, _, rfl⟩
      · exact ⟨rfl, rfl, fun _ member => member⟩
      · exact ⟨rfl, rfl, fun _ member => List.mem_append_left _ member⟩
  | attach facts consumer activationLsn =>
      obtain ⟨stream, made, rfl⟩ := except_map_ok ok
      obtain ⟨_, _, rfl⟩ := attach_cases made
      exact ⟨rfl, rfl, fun _ member => member⟩
  | advance consumer move =>
      obtain ⟨stream, made, rfl⟩ := except_map_ok ok
      obtain ⟨_, _, _, _, _, _, _, _, rfl⟩ := advance_cases made
      exact ⟨rfl, rfl, fun _ member => member⟩
  | publish lsn | dropResult resultOid =>
      obtain rfl := Except.ok.inj ok
      exact ⟨rfl, rfl, fun _ member => member⟩
  | collect chunkLimit rowLimit byteLimit =>
      obtain ⟨stream, made, rfl⟩ := except_map_ok ok
      rcases gc_cases _ _ _ _ _ made with ⟨_, rfl⟩ | ⟨slowest, _, rfl⟩
      · exact ⟨rfl, rfl, fun _ member => member⟩
      · exact ⟨rfl, rfl, fun _ member => member⟩

variable (spec : ScanSpec Row Out) (tables : ScanTables Row Out) {key : ConsumerKey}

theorem consumer_kept {history after : StreamHistory Row} {op : StreamOp Row} (other : OtherConsumer key op)
    (ok : historyStep history op = .ok after) {row : StreamConsumer} (member : row ∈ history.stream.consumers)
    (named : row.consumer = key) : row ∈ after.stream.consumers := by
  cases op with
  | append expected kind rowCount payloadBytes chunkLsn payload =>
      rcases append_history_cases rowCount payloadBytes payload ok with
        rfl | ⟨_, _, rfl⟩
      · exact member
      · exact member
  | attach facts consumer activationLsn =>
      obtain ⟨stream, made, rfl⟩ := except_map_ok ok
      obtain ⟨_, _, rfl⟩ := attach_cases made
      exact List.mem_append_left _ member
  | advance consumer move =>
      obtain ⟨stream, made, rfl⟩ := except_map_ok ok
      obtain ⟨_, _, _, _, _, _, _, _, rfl⟩ := advance_cases made
      have different : row.consumer ≠ consumer := by
        rw [named]
        exact fun same => other same.symm
      exact List.mem_map.mpr ⟨row, member, by simp [moveConsumer, different]⟩
  | publish lsn =>
      obtain rfl := Except.ok.inj ok
      exact member
  | collect chunkLimit rowLimit byteLimit =>
      obtain ⟨stream, made, rfl⟩ := except_map_ok ok
      rcases gc_cases _ _ _ _ _ made with ⟨_, rfl⟩ | ⟨slowest, _, rfl⟩
      · exact member
      · exact member
  | dropResult resultOid =>
      obtain rfl := Except.ok.inj ok
      refine List.mem_filter.mpr ⟨member, decide_eq_true ?_⟩
      rw [named]
      exact fun same => other same.symm

theorem counted_step (history after : StreamHistory Row) (op : StreamOp Row) (isSource : history.stream.isSource = true)
    (counted : CountedOp spec op) (ok : historyStep history op = .ok after)
    (before : ∀ chunk ∈ history.produced, CountedChunk spec chunk) : ∀ chunk ∈ after.produced, CountedChunk spec chunk := by
  cases op with
  | append expected kind rowCount payloadBytes chunkLsn payload =>
      rcases append_history_cases rowCount payloadBytes payload ok with
        rfl | ⟨causal, fits, rfl⟩
      · exact before
      · intro chunk member
        rcases List.mem_append.mp member with old | fresh
        · exact before chunk old
        · obtain rfl := List.mem_singleton.mp fresh
          refine ⟨counted.1, counted.2, ?_⟩
          cases producer : history.stream.producer with
          | operator resultOid stageId => simp [EffectStream.isSource, producer, Producer.isSource] at isSource
          | source slotGeneration sourceOid =>
              obtain ⟨rfl, _⟩ := source_append_data causal _ _ producer
              simp only [resourcesFit, Bool.and_eq_true, decide_eq_true_eq, counted.1] at fits
              exact List.length_pos_iff.mp fits.1.1.1
  | attach facts consumer activationLsn | advance consumer move | collect chunkLimit rowLimit byteLimit =>
      obtain ⟨stream, made, rfl⟩ := except_map_ok ok
      exact before
  | publish lsn | dropResult resultOid =>
      obtain rfl := Except.ok.inj ok
      exact before

theorem phase_source (input : StreamHistory Row) (kept : StreamKept tables.input input)
    (passes : ∀ next frontier, Passed tables.input next frontier → Passed input next frontier) (row : StreamConsumer)
    (continuation : Option ScanContinuation) (phase : PhaseInvariant tables row continuation) :
    PhaseInvariant { tables with input := input } row continuation := by
  have booting : Booting tables row → Booting { tables with input := input } row := fun before =>
    ⟨before.flat, before.unpublished, before.latest⟩
  have live : Live tables row → Live { tables with input := input } row := by
    intro before
    refine ⟨before.published, fun lsn isLatest => ?_⟩
    rcases before.latest lsn isLatest with low | ⟨chunk, produced, reached, within⟩
    · exact .inl low
    · exact .inr ⟨chunk, kept.produced chunk produced, reached, within⟩
  cases phase with
  | bootstrap next positive before spool =>
      rw [← kept.streamId]
      exact .bootstrap next positive (booting before) spool
  | snapshotFrontier before =>
      rw [← kept.streamId]
      exact .snapshotFrontier (booting before)
  | idle before => exact .idle (live before)
  | data before chunk produced atCursor ordinal started inside =>
      rw [← kept.streamId]
      exact .data (live before) chunk (kept.produced chunk produced) atCursor ordinal started inside
  | sourceFrontier frontier due =>
      rw [← kept.streamId]
      exact .sourceFrontier frontier ⟨live due.live, due.risen, passes _ _ due.passed, due.covers⟩

theorem phase_output (output : StreamHistory Out)
    (published : output.stream.publishedFrontierLsn = tables.output.stream.publishedFrontierLsn)
    (latest : output.stream.latestDataLsn = tables.output.stream.latestDataLsn) (row : StreamConsumer)
    (continuation : Option ScanContinuation) (phase : PhaseInvariant tables row continuation) :
    PhaseInvariant { tables with output := output } row continuation := by
  have booting : Booting tables row → Booting { tables with output := output } row := fun before =>
    ⟨before.flat, published.trans before.unpublished, fun lsn isLatest => before.latest lsn (latest.symm.trans isLatest)⟩
  have live : Live tables row → Live { tables with output := output } row := fun before =>
    ⟨published.trans before.published, fun lsn isLatest => before.latest lsn (latest.symm.trans isLatest)⟩
  cases phase with
  | bootstrap next positive before spool => exact .bootstrap next positive (booting before) spool
  | snapshotFrontier before => exact .snapshotFrontier (booting before)
  | idle before => exact .idle (live before)
  | data before chunk produced atCursor ordinal started inside =>
      exact .data (live before) chunk produced atCursor ordinal started inside
  | sourceFrontier frontier due =>
      refine .sourceFrontier frontier ⟨live due.live, due.risen, due.passed, ?_⟩
      rw [← due.covers]
      exact congrArg (behind · frontier) latest

theorem scan_source_keeps {spec : ScanSpec Row Out} {tables : ScanTables Row Out} {op : StreamOp Row}
    (counted : CountedOp spec op) (other : OtherConsumer key op) {input : StreamHistory Row}
    (ok : historyStep tables.input op = .ok input) (good : ScanInvariant spec key tables) :
    ScanInvariant spec key { tables with input := input } := by
  have kept := stream_step_keeps ok
  obtain ⟨slotGeneration, producer⟩ := good.source
  have isSource : tables.input.stream.isSource = true := by simp [EffectStream.isSource, producer, Producer.isSource]
  obtain ⟨row, member, named, first, baseline, phase⟩ := good.consumer
  exact {
    input := invariant_step good.input ok
    source := ⟨slotGeneration, kept.producer.trans producer⟩
    streamId := by
      rw [kept.streamId]
      exact good.streamId
    counted := counted_step spec tables.input input op isSource counted ok good.counted
    output := good.output
    checkpoint := good.checkpoint
    consumer := ⟨row, consumer_kept other ok member named, named, first, baseline,
      phase_source tables input kept (fun next frontier => passed_step ok) row _ phase⟩ }

-- Reading and collecting the output leaves its cursor and its frontiers.
structure OutputKept (before after : EffectStream Out) : Prop where
  limits : after.toStreamLimits = before.toStreamLimits
  producer : after.producer = before.producer
  next : after.nextChunkSeq = before.nextChunkSeq
  published : after.publishedFrontierLsn = before.publishedFrontierLsn
  latest : after.latestDataLsn = before.latestDataLsn
  consumers : after.consumers.length = before.consumers.length

theorem reader_op_keeps {history after : StreamHistory Out} {op : StreamOp Out} (reads : ReaderOp op)
    (ok : historyStep history op = .ok after) : OutputKept history.stream after.stream := by
  cases op with
  | append expected kind rowCount payloadBytes chunkLsn payload => cases reads
  | attach facts consumer activationLsn => cases reads
  | advance consumer move =>
      obtain ⟨stream, made, rfl⟩ := except_map_ok ok
      obtain ⟨_, _, _, _, _, _, _, _, rfl⟩ := advance_cases made
      exact ⟨rfl, rfl, rfl, rfl, rfl, List.length_map _⟩
  | publish lsn => cases reads
  | collect chunkLimit rowLimit byteLimit =>
      obtain ⟨stream, made, rfl⟩ := except_map_ok ok
      rcases gc_cases _ _ _ _ _ made with ⟨_, rfl⟩ | ⟨slowest, _, rfl⟩
      · exact ⟨rfl, rfl, rfl, rfl, rfl, rfl⟩
      · exact ⟨rfl, rfl, rfl, rfl, rfl, rfl⟩
  | dropResult resultOid => cases reads

theorem output_shape_kept (before after : EffectStream Out) (kept : OutputKept before after) (shape : OutputShape before) :
    OutputShape after := by
  refine ⟨?_, ?_, ?_, ?_⟩
  · unfold EffectStream.isSource
    rw [kept.producer]
    exact shape.operator
  · intro empty
    have length := kept.consumers
    rw [empty] at length
    exact shape.watched (List.length_eq_zero_iff.mp length.symm)
  · rw [kept.next]
    exact shape.numbered
  · rw [kept.limits]
    exact shape.target

theorem scan_reader_keeps {spec : ScanSpec Row Out} {tables : ScanTables Row Out} {op : StreamOp Out} (reads : ReaderOp op)
    {output : StreamHistory Out} (ok : historyStep tables.output op = .ok output) (good : ScanInvariant spec key tables) :
    ScanInvariant spec key { tables with output := output } := by
  have kept := reader_op_keeps reads ok
  obtain ⟨row, member, named, first, baseline, phase⟩ := good.consumer
  exact {
    input := good.input
    source := good.source
    streamId := good.streamId
    counted := good.counted
    output := output_shape_kept _ _ kept good.output
    checkpoint := good.checkpoint
    consumer := ⟨row, member, named, first, baseline, phase_output tables output kept.published kept.latest row _ phase⟩ }

theorem scan_registered_invariant (key : ConsumerKey) (tables : ScanTables Row Out)
    (registered : ScanRegistered spec key tables) : ScanInvariant spec key tables := by
  obtain ⟨fresh, before, facts, activationLsn, isFresh, ran, attached⟩ := registered.input
  obtain ⟨slotGeneration, producer⟩ := registered.source
  obtain ⟨limits, streamId, resultOid, stageId, consumers, target, watched, output⟩ := registered.output
  have invariant : StreamInvariant before := path_invariant StreamInvariant
    (fun history op after good _ taken => invariant_step good taken) fresh before
    (stream_invariant_fresh fresh isFresh) ran
  obtain ⟨stream, made, attachedInput⟩ := except_map_ok attached
  obtain ⟨_, _, rfl⟩ := attach_cases made
  have sameProducer : before.stream.producer = .source slotGeneration spec.sourceOid := by
    rw [← attachedInput] at producer
    exact producer
  have counted : ∀ chunk ∈ before.produced, CountedChunk spec chunk := by
    have sourceOnly : before.stream.isSource = true → ∀ chunk ∈ before.produced, CountedChunk spec chunk := by
      apply path_invariant (fun history : StreamHistory Row =>
        history.stream.isSource = true → ∀ chunk ∈ history.produced, CountedChunk spec chunk) _ fresh before _ ran
      · intro history op after good counted taken isSource
        have same : history.stream.isSource = true := by
          rw [← isSource]
          exact congrArg Producer.isSource (stream_step_keeps taken).producer.symm
        exact counted_step spec history after op same counted taken (good same)
      · obtain ⟨_, _, _, _, rfl⟩ := isFresh
        intro _ chunk member
        cases member
    exact sourceOnly (by simp [EffectStream.isSource, sameProducer, Producer.isSource])
  refine ⟨invariant_step invariant attached, ⟨slotGeneration, producer⟩, registered.streamId, ?_, ?_,
    ?_, freshConsumer before.stream key activationLsn, ?_, ?_, ?_, ?_, ?_⟩
  · rw [← attachedInput]
    exact counted
  · rw [output]
    exact ⟨rfl, watched, Nat.le_refl 1, target⟩
  · rw [registered.checkpoint, registered.continuation]
    rfl
  · rw [← attachedInput]
    exact List.mem_append_right _ (List.mem_singleton.mpr rfl)
  · simp [freshConsumer, sameProducer]
  · have next := invariant.produced.next
    simp only [freshConsumer, sameProducer]
    omega
  · simp [freshConsumer, sameProducer]
  · rw [registered.continuation]
    refine .bootstrap 1 Nat.one_pos ⟨?_, ?_, ?_⟩ registered.spool
    · simp [freshConsumer, sameProducer]
    · rw [output]
      rfl
    · rw [output]
      intro lsn isLatest
      cases isLatest

end Shiba.Linear
