import Shiba.Linear.Stage
import Shiba.Execution.Cursor

set_option autoImplicit false

namespace Shiba.Linear

open Shiba.Stream Shiba.Execution Shiba.Execution.StepContext

variable {Row Out : Type}

-- The context of a ready step once its continuation authority is bound.
def boundContext (tables : ScanTables Row Out) (key : ConsumerKey) (budget : WorkBudget) (row : StreamConsumer) :
    ScanContext Row Out :=
  { startContext tables key budget row with continuationPresence := some tables.continuation.isSome }

theorem next_unconsumed_mem (stream : EffectStream Row) (next : Nat) (lsn : Lsn)
    (isNext : nextUnconsumedLsn stream next = some lsn) :
    ∃ chunk ∈ stream.chunks, next ≤ chunk.chunkSeq ∧ chunk.chunkLsn = lsn := by
  obtain ⟨chunk, first, isLsn⟩ := Option.map_eq_some_iff.mp isNext
  exact ⟨chunk, List.mem_of_find?_eq_some first, by simpa using List.find?_some first, isLsn⟩

-- A stepped context that appended a frontier and left no continuation commits.
theorem frontier_commits {Cont State : Type} (stepped : StepContext Row Out Cont State) (sequence : Nat)
    (frontierOutput : stepped.frontierOutput = some sequence) (unwritten : stepped.output.pendingDataChunk = none)
    (bound : stepped.continuationPresence = some false)
    (expected : stepped.tables.revision = stepped.expectedRevision) :
    stepped.transition .frontier {} = .ok (stepped.stepReceipt .frontier {} false) ∧
      stepped.Committable .frontier {} false := by
  have facts : stepped.outputFacts = .frontier sequence := by simp [StepContext.outputFacts, frontierOutput]
  have agrees : OutputAgrees .frontier {} stepped.outputFacts := by
    rw [facts]
    exact ⟨rfl, rfl, rfl⟩
  have progress : false = true → stepped.continuationChanged = true := fun wrong => by cases wrong
  refine ⟨transition_ok stepped .frontier {} false bound (usage_none _) progress agrees,
    ⟨bound, usage_none _, progress, agrees, ?_, expected⟩⟩
  intro pending isPending
  rw [unwritten] at isPending
  cases isPending

-- A frontier step reports its facts.
theorem frontier_facts_commits {Cont State : Type} (context : StepContext Row Out Cont State) (sequence : Nat)
    (positive : sequence ≠ 0) (frontierOutput : context.frontierOutput = some sequence)
    (unwritten : context.output.pendingDataChunk = none) (bound : context.continuationPresence = some false)
    (expected : context.tables.revision = context.expectedRevision) :
    context.transitionFacts .frontier { output := .frontier sequence } =
        .ok (context, context.stepReceipt .frontier {} false) ∧ context.Committable .frontier {} false := by
  obtain ⟨moved, committable⟩ := frontier_commits context sequence frontierOutput unwritten bound expected
  refine ⟨?_, committable⟩
  have protocol : PrimitiveFacts.validateProtocol { output := .frontier sequence } context.budget .frontier
      (if context.continuationPresence = some true then .continuing else .finished) = .ok () := by
    rw [bound]
    simp [PrimitiveFacts.validateProtocol, PrimitiveFacts.validate, usage_none, positive, refuse, bind, Except.bind,
      OutputFacts.isFrontier, OutputFacts.isData]
  have sameOutput : (context.stepReceipt .frontier {} false).output = .frontier sequence := by
    simp [stepReceipt, StepContext.outputFacts, frontierOutput]
  have sameContext : ({ context with stateRows := context.stateRows + 0 } : StepContext Row Out Cont State) = context := rfl
  unfold transitionFacts
  rw [protocol]
  simp only [ok_bind, sameContext, moved, sameOutput, ne_eq, not_true_eq_false, decide_false, not_refused]
  rfl

theorem output_shape_appended {history : StreamHistory Out} (shape : OutputShape history.stream) (kind : ChunkKind)
    (rowCount payloadBytes : Nat) (chunkLsn : Lsn) (payload : List (EffectRow Out)) :
    OutputShape (appendedHistory history kind rowCount payloadBytes chunkLsn payload).stream :=
  ⟨shape.operator, shape.watched, Nat.le_succ_of_le shape.numbered, shape.target⟩

section Ready

variable (spec : ScanSpec Row Out) (key : ConsumerKey) (tables : ScanTables Row Out) (budget : WorkBudget)
  (row : StreamConsumer) (good : ScanInvariant spec key tables) (found : tables.input.stream.findConsumer key = some row)
  (flowing : tables.output.stream.backpressured = false)

include good

include flowing in
theorem output_ready : OutputReady tables.output.stream :=
  ⟨good.output.operator, good.output.watched, good.output.numbered, flowing⟩

theorem input_is_source : tables.input.stream.isSource = true := by
  obtain ⟨slotGeneration, producer⟩ := good.source
  simp [EffectStream.isSource, producer, Producer.isSource]

include found

theorem row_phase : 1 ≤ row.nextChunkSeq ∧ row.activationLsn ≤ row.consumedFrontierLsn ∧
    PhaseInvariant tables row tables.continuation := by
  obtain ⟨other, member, named, first, baseline, phase⟩ := good.consumer
  have same := consumer_found good.input member named
  obtain rfl := Option.some.inj (found.symm.trans same)
  exact ⟨first, baseline, phase⟩

theorem row_consumer : ConsumerInvariant tables.input row :=
  good.input.consumers row (found_consumer tables.input key row found).1

omit found in
-- A scan reads its continuation under its own authority.
theorem execute_scan_start : executeScan spec (startContext tables key budget row) =
    (match tables.continuation with
    | none => stepNextChunk spec (boundContext tables key budget row) none
    | some saved => do
        refuse (decide (saved.inputStreamId ≠ tables.input.stream.streamId))
          "Scan continuation references another input stream"
        validateScanContinuation saved
        stepSaved spec (boundContext tables key budget row) saved) := by
  obtain ⟨slotGeneration, producer⟩ := good.source
  have sameOid : (startContext tables key budget row).input.sourceOid = some spec.sourceOid := by
    simp [startContext, inputState, InputState.sourceOid, producer]
  have bound : (startContext tables key budget row).bindContinuationAuthority tables.continuation.isSome =
      .ok (boundContext tables key budget row) := by
    simp [bindContinuationAuthority, good.checkpoint, startContext, refuse, bind, Except.bind, pure, Except.pure,
      boundContext]
  have isContinuation : (startContext tables key budget row).tables.continuation = tables.continuation := rfl
  have sameStream : (boundContext tables key budget row).input.streamId = tables.input.stream.streamId := rfl
  unfold executeScan
  simp only [sameOid, isContinuation, bound, refuse, ne_eq, not_true_eq_false, decide_false, Bool.false_eq_true, if_false,
    bind, Except.bind]
  cases tables.continuation with
  | none => rfl
  | some saved => rw [sameStream]

omit found in
theorem execute_fresh (fresh : tables.continuation = none) : executeScan spec (startContext tables key budget row) =
    stepNextChunk spec (boundContext tables key budget row) none := by
  rw [execute_scan_start spec key tables budget row good, fresh]

omit found in
theorem execute_saved (continuation : ScanContinuation) (saved : tables.continuation = some continuation)
    (sameStream : continuation.inputStreamId = tables.input.stream.streamId)
    (valid : validateScanContinuation continuation = .ok ()) : executeScan spec (startContext tables key budget row) =
    stepSaved spec (boundContext tables key budget row) continuation := by
  rw [execute_scan_start spec key tables budget row good, saved]
  simp [sameStream, valid, refuse, bind, Except.bind]

omit found in
theorem stored_data {chunk : EffectChunk Row} (stored : chunk ∈ tables.input.stream.chunks) :
    chunk ∈ tables.input.produced ∧ chunk.chunkKind = .data :=
  have produced := good.input.produced.stored.subset stored
  ⟨produced, is_source_data good.input.produced (input_is_source spec key tables good) produced⟩

omit found in
-- A closed frontier is one the source consumer may move to.
theorem passed_causal {next : Nat} {frontier : Lsn} (passed : Passed tables.input next frontier) (usage : WorkUsage) :
    frontierFault tables.input.stream tables.input.published row (moveOf row next frontier usage) = none := by
  obtain ⟨slotGeneration, producer⟩ := good.source
  have closed := passed.closed
  simp only [closedThrough, producer] at closed
  simp only [frontierFault, producer, moveOf, closed, Bool.true_eq_false, and_false, if_false]
  cases isNext : nextUnconsumedLsn tables.input.stream next with
  | none => rfl
  | some lsn =>
      obtain ⟨chunk, stored, ahead, rfl⟩ := next_unconsumed_mem _ _ _ isNext
      obtain ⟨produced, isData⟩ := stored_data spec key tables good stored
      simp [Nat.not_le.mpr (passed.later chunk produced isData ahead)]

omit found in
theorem passed_skips_nothing (context : ScanContext Row Out) (sameTables : context.tables = tables) (frontier : Lsn)
    (passed : Passed tables.input context.input.nextChunkSeq frontier) :
    assertFrontierSkipsNoSourceChunk context frontier = .ok () := by
  unfold assertFrontierSkipsNoSourceChunk
  rw [refuse_ok, List.any_eq_false, sameTables]
  intro chunk stored
  obtain ⟨produced, isData⟩ := stored_data spec key tables good stored
  simp only [Bool.and_eq_true, decide_eq_true_eq, not_and, Nat.not_le]
  exact passed.later chunk produced isData

-- The stage after its output has reached a frontier.
def afterFrontier (tables : ScanTables Row Out) (stream : EffectStream Row) (frontier : Lsn) : ScanTables Row Out :=
  { tables with
    input := { tables.input with stream }
    output := appendedHistory tables.output .frontier 0 0 frontier []
    continuation := none
    hasContinuation := false
    revision := tables.revision + 1 }

-- The consumers once the stage has moved its own.
def movedStream (tables : ScanTables Row Out) (key : ConsumerKey) (row : StreamConsumer) (next : Nat) (frontier : Lsn)
    (usage : WorkUsage) : EffectStream Row :=
  { tables.input.stream with
    consumers := tables.input.stream.consumers.map (moveConsumer key (moveOf row next frontier usage)) }

omit good in
theorem moved_row (next : Nat) (frontier : Lsn) (usage : WorkUsage) :
    { row with nextChunkSeq := next, consumedFrontierLsn := frontier } ∈
      (movedStream tables key row next frontier usage).consumers :=
  moved_consumer found next frontier usage

theorem moved_invariant (next : Nat) (frontier : Lsn) (usage : WorkUsage)
    (fits : MoveFits tables.input row next frontier)
    (causal : frontierFault tables.input.stream tables.input.published row (moveOf row next frontier usage) = none) :
    StreamInvariant { tables.input with stream := movedStream tables key row next frontier usage } :=
  moved_input_invariant good.input found next frontier usage fits causal

-- Reaching a frontier leaves a live stage behind, whether the input moved or not.
theorem after_frontier_invariant {stream : EffectStream Row}
    (input : StreamInvariant { tables.input with stream := stream }) (producer : stream.producer = tables.input.stream.producer)
    (streamId : stream.streamId = tables.input.stream.streamId) {frontier : Lsn}
    (member : { row with consumedFrontierLsn := frontier } ∈ stream.consumers) (onward : row.consumedFrontierLsn ≤ frontier)
    (latest : ∀ lsn, tables.output.stream.latestDataLsn = some lsn → lsn ≤ row.activationLsn ∨
      ∃ chunk ∈ tables.input.produced, chunk.chunkSeq ≤ row.nextChunkSeq ∧ lsn ≤ chunk.chunkLsn) :
    ScanInvariant spec key (afterFrontier tables stream frontier) := by
  obtain ⟨slotGeneration, isSource⟩ := good.source
  obtain ⟨first, baseline, _⟩ := row_phase spec key tables row good found
  exact {
    input := input
    source := ⟨slotGeneration, producer.trans isSource⟩
    streamId := by
      have positive := good.streamId
      rw [← streamId] at positive
      exact positive
    counted := good.counted
    output := output_shape_appended good.output .frontier 0 0 frontier []
    checkpoint := rfl
    consumer := ⟨{ row with consumedFrontierLsn := frontier }, member, (found_consumer tables.input key row found).2, first,
      Nat.le_trans baseline onward, .idle ⟨rfl, latest⟩⟩ }

-- A step that commits, keeps the stage's invariant and publishes no frontier
-- but one its output can take.
def Goes (spec : ScanSpec Row Out) (key : ConsumerKey) (tables : ScanTables Row Out) (budget : WorkBudget)
    (row : StreamConsumer) : Prop :=
  ∃ stepped phase usage hasContinuation,
    executeScan spec (startContext tables key budget row) =
      .ok (stepped, stepped.stepReceipt phase usage hasContinuation) ∧
    phase ∈ [KernelPhase.admitted, .process, .frontier] ∧ stepped.Committable phase usage hasContinuation ∧
    ScanInvariant spec key (stepped.committedTables hasContinuation) ∧
    ∀ frontier, (stepped.committedTables hasContinuation).output.stream.publishedFrontierLsn = some frontier →
      tables.output.stream.publishedFrontierLsn = some frontier ∨ FrontierFits tables.output.stream frontier

theorem snapshot_goes (flowing : tables.output.stream.backpressured = false) (booting : Booting tables row)
    (saved : tables.continuation = some
      { phase := .snapshotFrontier
        inputStreamId := tables.input.stream.streamId
        pendingFrontierLsn := some row.activationLsn })
    (numbers : tables.output.stream.nextChunkSeq ≠ bigintMax) : Goes spec key tables budget row := by
  have fits : FrontierFits tables.output.stream row.activationLsn := by
    refine ⟨numbers, ?_, ?_⟩
    · rw [booting.unpublished]
      rfl
    · cases latest : tables.output.stream.latestDataLsn with
      | none => rfl
      | some lsn => simpa using booting.latest lsn latest
  have appended := append_frontier_ok (boundContext tables key budget row) ⟨rfl, rfl⟩ row.activationLsn
    (output_ready spec key tables good flowing) fits
  have replaced := replace_continuation_ok ((boundContext tables key budget row).frontierAppended row.activationLsn) none
    "Scan" rfl
  obtain ⟨moved, committable⟩ := frontier_commits
    (((boundContext tables key budget row).frontierAppended row.activationLsn).withContinuation none) _ rfl rfl rfl rfl
  have flat : (boundContext tables key budget row).input.consumedFrontierLsn =
      (boundContext tables key budget row).input.activationLsn := booting.flat
  have boundActivation : (boundContext tables key budget row).input.activationLsn = row.activationLsn := rfl
  have sameRow : { row with consumedFrontierLsn := row.activationLsn } ∈ tables.input.stream.consumers := by
    have unchanged : { row with consumedFrontierLsn := row.activationLsn } = row := by
      have level := booting.flat
      cases row
      simp_all
    rw [unchanged]
    exact (found_consumer tables.input key row found).1
  have saved_bound : ((boundContext tables key budget row).frontierAppended row.activationLsn).tables.continuation =
    _ := saved
  refine ⟨_, .frontier, {}, false, ?_, by simp, committable, ?_, fun frontier published => ?_⟩
  · rw [execute_saved spec key tables budget row good _ saved rfl (by
      simp [validateScanContinuation, Nat.ne_of_gt good.streamId, refuse, bind, Except.bind])]
    rw [saved_bound] at replaced
    simp only [stepSaved, stepSnapshotFrontier, flat, boundActivation, ne_eq, not_true_eq_false, decide_false,
      Bool.or_self, not_refused, bind, Except.bind, appended, replaced, moved, pure, Except.pure]
  · exact after_frontier_invariant spec key tables row good found good.input rfl rfl
      sameRow (Nat.le_of_eq booting.flat) fun lsn latest => .inl (booting.latest lsn latest)
  · obtain rfl := Option.some.inj published
    exact .inr fits

omit good found in
theorem due_fits (frontier : Lsn) (due : FrontierDue tables row frontier)
    (numbers : tables.output.stream.nextChunkSeq ≠ bigintMax) : FrontierFits tables.output.stream frontier := by
  refine ⟨numbers, ?_, due.covers⟩
  rw [due.live.published]
  simpa using due.risen

theorem due_move (frontier : Lsn) (due : FrontierDue tables row frontier) :
    MoveFits tables.input row row.nextChunkSeq frontier where
  onward := Nat.le_refl _
  raised := Nat.le_of_lt due.risen
  moves := fun same => Nat.ne_of_gt due.risen same.2
  short := Nat.le_succ _
  first := (row_phase spec key tables row good found).1
  produced := (row_consumer spec key tables row good found).within
  retained := by
    rw [Nat.sub_self, List.length_eq_zero_iff]
    refine List.filter_eq_nil_iff.mpr fun chunk _ => ?_
    simp only [Bool.and_eq_true, decide_eq_true_eq, not_and, Nat.not_lt]
    exact id

-- The stage after it consumed a source frontier.
def frontierMoved (tables : ScanTables Row Out) (key : ConsumerKey) (budget : WorkBudget) (row : StreamConsumer)
    (frontier : Lsn) : ScanContext Row Out :=
  ((boundContext tables key budget row).frontierAppended frontier).inputMoved
    (movedStream tables key row row.nextChunkSeq frontier {})

theorem due_advance (frontier : Lsn) (due : FrontierDue tables row frontier) :
    ((boundContext tables key budget row).frontierAppended frontier).advanceInput row.nextChunkSeq frontier {} =
      .ok (frontierMoved tables key budget row frontier) :=
  advance_input_ok ((boundContext tables key budget row).frontierAppended frontier) row found rfl rfl row.nextChunkSeq
    frontier {} (due_move spec key tables row good found frontier due)
    (passed_causal spec key tables row good due.passed {})

theorem due_after (frontier : Lsn) (due : FrontierDue tables row frontier) : ScanInvariant spec key
    (afterFrontier tables (movedStream tables key row row.nextChunkSeq frontier {}) frontier) :=
  after_frontier_invariant spec key tables row good found
    (moved_invariant spec key tables row good found _ _ {} (due_move spec key tables row good found frontier due)
      (passed_causal spec key tables row good due.passed {}))
    rfl rfl (moved_row key tables row found row.nextChunkSeq frontier {}) (Nat.le_of_lt due.risen)
    due.live.latest

variable (flowing : tables.output.stream.backpressured = false) (frontier : Lsn)
  (due : FrontierDue tables row frontier)

include flowing due

theorem saved_frontier_goes (saved : tables.continuation = some (frontierContinuation tables.input.stream.streamId frontier))
    (numbers : tables.output.stream.nextChunkSeq ≠ bigintMax) : Goes spec key tables budget row := by
  have fits := due_fits tables row frontier due numbers
  have appended := append_frontier_ok (boundContext tables key budget row) ⟨rfl, rfl⟩ frontier
    (output_ready spec key tables good flowing) fits
  have advanced := due_advance spec key tables budget row good found frontier due
  have skips := passed_skips_nothing spec key tables good (boundContext tables key budget row) rfl frontier due.passed
  have present : (frontierMoved tables key budget row frontier).tables.continuation.isSome = true := by
    change tables.continuation.isSome = true
    rw [saved]
    rfl
  have cleared := clear_continuation_ok (frontierMoved tables key budget row frontier) "linear" (congrArg some present)
    present
  obtain ⟨moved, committable⟩ := frontier_commits ((frontierMoved tables key budget row frontier).withContinuation none)
    _ rfl rfl rfl rfl
  have published : (boundContext tables key budget row).input.availableSourceFrontierLsn = tables.input.published := by
    simp [boundContext, startContext, inputState, input_is_source spec key tables good]
  have reached : (decide (frontier ≤ (boundContext tables key budget row).input.consumedFrontierLsn) ||
      (boundContext tables key budget row).input.availableSourceFrontierLsn.all fun available =>
        decide (available < frontier)) = false := by
    obtain ⟨slotGeneration, producer⟩ := good.source
    have closed := due.passed.closed
    simp only [closedThrough, producer] at closed
    rw [published]
    cases lsn : tables.input.published with
    | none => simp [lsn] at closed
    | some available =>
        simp only [lsn, reached_by_some, decide_eq_true_eq] at closed
        have risen : ¬ frontier ≤ (boundContext tables key budget row).input.consumedFrontierLsn := Nat.not_le.mpr due.risen
        simp [risen, closed]
  refine ⟨_, .frontier, {}, false, ?_, by simp, committable, due_after spec key tables row good found frontier due,
    fun frontier published => ?_⟩
  · rw [execute_saved spec key tables budget row good _ saved rfl (by
      simp [validateScanContinuation, frontierContinuation, Nat.ne_of_gt good.streamId, refuse, bind, Except.bind])]
    have sameNext : ((boundContext tables key budget row).frontierAppended frontier).input.nextChunkSeq =
      row.nextChunkSeq := rfl
    simp only [stepSaved, frontierContinuation, stepScanFrontier, reached, skips, deleteContinuation, sameNext,
      not_refused, if_true, bind, Except.bind, appended, advanced, cleared, moved, pure, Except.pure]
  · obtain rfl := Option.some.inj published
    exact .inr fits

theorem available_frontier_goes (fresh : tables.continuation = none) (published : tables.input.published = some frontier)
    (exhausted : tables.input.stream.chunks.find? (fun chunk => chunk.chunkSeq = row.nextChunkSeq) = none)
    (numbers : tables.output.stream.nextChunkSeq ≠ bigintMax) : Goes spec key tables budget row := by
  have fits := due_fits tables row frontier due numbers
  have appended := append_frontier_ok (boundContext tables key budget row) ⟨rfl, rfl⟩ frontier
    (output_ready spec key tables good flowing) fits
  have advanced := due_advance spec key tables budget row good found frontier due
  have skips := passed_skips_nothing spec key tables good (boundContext tables key budget row) rfl frontier due.passed
  have unsaved : (frontierMoved tables key budget row frontier).continuationPresence = some false := by
    change some tables.continuation.isSome = some false
    rw [fresh]
    rfl
  obtain ⟨moved, committable⟩ := frontier_commits (frontierMoved tables key budget row frontier) _ rfl rfl unsaved rfl
  have available : availableFrontier (boundContext tables key budget row) = some frontier := by
    simp [availableFrontier, boundContext, startContext, inputState, input_is_source spec key tables good, published,
      due.risen]
  have positive : ¬ row.nextChunkSeq = 0 := by
    have first := (row_phase spec key tables row good found).1
    omega
  have sameNext : (boundContext tables key budget row).input.nextChunkSeq = row.nextChunkSeq := rfl
  have keptNext : ((boundContext tables key budget row).frontierAppended frontier).input.nextChunkSeq =
    row.nextChunkSeq := rfl
  have sameInput : (boundContext tables key budget row).tables.input = tables.input := rfl
  refine ⟨_, .frontier, {}, false, ?_, by simp, committable, ?_, fun frontier published => ?_⟩
  · rw [execute_fresh spec key tables budget row good fresh]
    have noChunk : chunkAt tables.input row.nextChunkSeq = .ok none := by
      simp [chunkAt, positive, exhausted, refuse, bind, Except.bind, pure, Except.pure]
    simp only [stepNextChunk, sameNext, keptNext, sameInput, noChunk, stepAvailableSourceFrontier, available, skips, refuse,
      Option.isSome_none, Bool.false_eq_true, if_false, bind, Except.bind, appended, advanced, moved, pure, Except.pure]
  · have same : (frontierMoved tables key budget row frontier).committedTables false =
        afterFrontier tables (movedStream tables key row row.nextChunkSeq frontier {}) frontier := by
      unfold committedTables publishedTables afterFrontier
      rw [← fresh]
      rfl
    rw [same]
    exact due_after spec key tables row good found frontier due
  · obtain rfl := Option.some.inj published
    exact .inr fits

end Ready

end Shiba.Linear
