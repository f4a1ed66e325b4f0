import Shiba.Sink.Stage

set_option autoImplicit false

namespace Shiba.Sink

open Copies Weighted Shiba.Stream Shiba.Execution Shiba.Execution.StepContext Shiba.Linear Shiba.Linear.Transform

variable {Row Out : Type}

section Context

variable (context : SinkContext Row Out)

-- A Sink's context writes to no stream.
structure Quiet : Prop where
  frontier : context.frontierOutput = none
  pending : context.output.pendingDataChunk = none

variable (quiet : Quiet context) (phase : KernelPhase) (usage : WorkUsage) {hasContinuation : Bool}
  (progress : hasContinuation = true → context.continuationChanged = true)

include quiet progress

theorem sink_receipt_valid : (sinkReceipt context phase usage hasContinuation).validate = .ok () := by
  have none : context.outputFacts = .none := by simp only [outputFacts, quiet.frontier, quiet.pending]
  have counted : ¬ (0 < context.stateRows ∧ context.stateRows = 0) := by omega
  unfold sinkReceipt stepReceipt progressWitness
  cases hasContinuation with
  | false => simp [StepReceipt.validate, none, counted, refuse, bind, Except.bind, OutputFacts.isData,
      OutputFacts.isFrontier]
  | true => simp [StepReceipt.validate, none, counted, refuse, bind, Except.bind, OutputFacts.isData,
      OutputFacts.isFrontier, progress rfl, ProgressWitness.hasDurableProgress]

variable (bound : context.continuationPresence = some hasContinuation)
  (valid : usage.validate context.budget = .ok ())

include bound valid

theorem sink_transition_ok : transition context phase usage = .ok (sinkReceipt context phase usage hasContinuation) := by
  simp [transition, valid, bound, sink_receipt_valid context quiet phase usage progress, bind,
    Except.bind, pure, Except.pure]

theorem sink_commit_ok (expected : context.tables.revision = context.expectedRevision) :
    context.commit (sinkReceipt context phase usage hasContinuation) =
      .ok { context.tables with revision := context.tables.revision + 1, hasContinuation := hasContinuation } := by
  have accepted := sink_receipt_valid context quiet phase usage progress
  have authority : decide ((sinkReceipt context phase usage hasContinuation).completion = .continuing) =
      hasContinuation := by
    unfold sinkReceipt stepReceipt
    cases hasContinuation <;> simp
  have sameUsage : (sinkReceipt context phase usage hasContinuation).usage = usage := rfl
  have published : context.publishPendingOutput = .ok context := by
    unfold publishPendingOutput
    rw [quiet.pending]
  unfold commit
  simp [accepted, authority, sameUsage, valid, bound, published, expected, refuse, bind, Except.bind, pure, Except.pure]

end Context

section Step

variable [DecidableEq Out] (spec : SinkSpec Row Out) (key : ConsumerKey) (tables : SinkTables Row Out)
  (budget : WorkBudget) (row : StreamConsumer) (continuation : SinkContinuation) (chunk : EffectChunk Row)

-- The Sink stands at a continuation of its input.
structure Stands : Prop where
  good : SinkInvariant spec key tables
  found : tables.input.stream.findConsumer key = some row
  first : 1 ≤ row.nextChunkSeq
  flat : row.activationLsn = 0
  applying : Applying spec tables row continuation

-- With the chunk it stands at.
structure AtChunk : Prop where
  stands : Stands spec key tables row continuation
  stored : chunk ∈ tables.input.stream.chunks
  atCursor : chunk.chunkSeq = row.nextChunkSeq

theorem invariant_stands (good : SinkInvariant spec key tables) : ∃ row continuation,
    Stands spec key tables row continuation := by
  obtain ⟨row, member, named, first, flat, continuation, applying⟩ := good.consumer
  exact ⟨row, continuation, good, consumer_found good.input member named, first, flat, applying⟩

section Stands

variable {spec key tables row continuation} (stands : Stands spec key tables row continuation)

include stands

theorem saved_is_some : tables.continuation.isSome = continuation.persisted := by
  rw [stands.applying.saved]
  cases continuation.persisted <;> rfl

theorem load_continuation_ok : loadContinuation (startContext tables key budget row) = .ok continuation := by
  obtain ⟨good, found, first, flat, applying⟩ := stands
  have position := applying.position
  have saved := applying.saved
  have input : (startContext tables key budget row).input = inputState tables.input row := rfl
  have same : (startContext tables key budget row).tables = tables := rfl
  obtain ⟨⟨streamId, chunkSeq, ordinal⟩, remaining, persisted⟩ := continuation
  obtain ⟨rfl, rfl, _⟩ := InputPosition.mk.inj position
  unfold loadContinuation
  rw [same, saved, input]
  cases persisted with
  | false =>
      obtain ⟨start, none⟩ := applying.fresh rfl
      simp only at start none
      subst start none
      simp only [Bool.false_eq_true, if_false, inputState, InputPosition.new, Nat.ne_of_gt good.streamId,
        Nat.ne_of_gt first, decide_false, Bool.or_self, refuse, ok_bind, pure, Except.pure]
  | true =>
      obtain ⟨chunk, _, _, _, cursor⟩ := applying.inside rfl
      have nonzero : remaining ≠ some 0 := by
        rintro rfl
        have inside := cursor.inside
        exact (cursor.suffix _ (List.getElem?_eq_getElem inside) 0 rfl).1 rfl
      simp only [if_true, continuationArguments, inputState, nonzero, InputPosition.new, Nat.ne_of_gt good.streamId,
        Nat.ne_of_gt first, ne_eq, not_true_eq_false, decide_false, Bool.or_self, not_refused,
        ok_bind, pure, Except.pure]

-- A pending position is a stored chunk.
theorem pending_chunk (pending : row.nextChunkSeq < tables.input.stream.nextChunkSeq) :
    ∃ chunk, AtChunk spec key tables row continuation chunk := by
  obtain ⟨chunk, stored, atCursor⟩ := pending_stored stands.good.input stands.found stands.first pending
  exact ⟨chunk, stands, stored, atCursor⟩

end Stands

variable {spec key tables row continuation chunk} (here : AtChunk spec key tables row continuation chunk)

include here

theorem chunk_produced : chunk ∈ tables.input.produced := here.stands.good.input.produced.stored.subset here.stored

-- A saved continuation is inside the chunk at the cursor, which has data.
theorem saved_inside (persisted : continuation.persisted = true) : chunk.chunkKind = .data ∧
    CursorIn tables.input.stream.streamId chunk continuation := by
  obtain ⟨other, produced, atCursor, isData, cursor⟩ := here.stands.applying.inside persisted
  have same : other = chunk := List.inj_on_of_nodup_map (produced_keys here.stands.good.input) produced
    (chunk_produced here) (atCursor.trans here.atCursor.symm)
  subst same
  exact ⟨isData, cursor⟩

theorem cursor_inside (kind : chunk.chunkKind = .data) : CursorIn tables.input.stream.streamId chunk continuation := by
  by_cases persisted : continuation.persisted = true
  · exact (saved_inside here persisted).2
  · obtain ⟨start, none⟩ := here.stands.applying.fresh (Bool.eq_false_iff.mpr persisted)
    have present := (here.stands.good.stored chunk (chunk_produced here)).counted.present kind
    refine ⟨?_, ?_, ?_⟩
    · rw [here.atCursor]
      exact here.stands.applying.position
    · rw [start]
      exact List.length_pos_iff.mpr present
    · rw [none]
      intro row found rest isRest
      cases isRest

theorem frontier_start (kind : chunk.chunkKind = .frontier) : continuation.persisted = false ∧
    continuation.position.rowOrdinal = 0 ∧ continuation.remainingWeight = none := by
  have unsaved : continuation.persisted = false := by
    by_contra persisted
    have isData := (saved_inside here (by simpa using persisted)).1
    rw [kind] at isData
    cases isData
  exact ⟨unsaved, here.stands.applying.fresh unsaved⟩

-- A step at a chunk runs the kernel's consumer of its kind.
def consumed (spec : SinkSpec Row Out) (context : SinkContext Row Out) (continuation : SinkContinuation)
    (chunk : EffectChunk Row) : ChunkKind → Except Fault (SinkContext Row Out × StepReceipt)
  | .frontier => consumeFrontier context continuation chunk
  | .data => consumeData spec context continuation chunk

theorem step_consumes : step spec (startContext tables key budget row) =
    consumed spec (boundStart tables key budget row) continuation chunk chunk.chunkKind := by
  have good := here.stands.good
  have isSome := saved_is_some here.stands
  have bound := bind_start_ok key budget row good.checkpoint
  have atCursor : (boundStart tables key budget row).input.nextChunkSeq = chunk.chunkSeq := here.atCursor.symm
  have sameInput : (boundStart tables key budget row).tables.input = tables.input := rfl
  have position : continuation.position.chunkSeq = chunk.chunkSeq := by
    rw [here.stands.applying.position, here.atCursor]
  have stored := chunk_at_stored good.input here.stored
    (good.stored chunk (chunk_produced here)).counted (here.atCursor ▸ here.stands.first)
  unfold step
  rw [load_continuation_ok budget here.stands]
  simp only [ok_bind]
  rw [← isSome, bound]
  simp only [ok_bind, atCursor, sameInput, position, stored, ne_eq, not_true_eq_false, decide_false, not_refused]
  cases chunk.chunkKind with
  | data => rfl
  | frontier => rfl

theorem sink_begins : begin tables key budget = .ok (.ready (startContext tables key budget row)) := by
  have good := here.stands.good
  apply begin_starts tables key budget row here.stands.found
  · rw [good.output]
    rfl
  · exact .inr (stored_ahead good.input here.stored here.atCursor)

theorem source_is_operator : (startContext tables key budget row).input.producer.isSource = false := by
  obtain ⟨resultOid, stageId, producer⟩ := operator_producer tables.input.stream here.stands.good.operator
  change tables.input.stream.producer.isSource = false
  rw [producer]
  rfl

-- The tables a step over the whole chunk leaves.
def passedTables (tables : SinkTables Row Out) (key : ConsumerKey) (row : StreamConsumer) (chunk : EffectChunk Row)
    (result : List Out) : SinkTables Row Out :=
  { tables with
    input := movedInput tables.input key row (row.nextChunkSeq + 1) (carriedFrontier row chunk)
      ⟨chunk.rowCount, chunk.payloadBytes, 0, 0⟩
    revision := tables.revision + 1
    hasContinuation := false
    continuation := none
    state := result }

def insideTables (tables : SinkTables Row Out) (next : SinkContinuation) (result : List Out) : SinkTables Row Out :=
  { tables with
    revision := tables.revision + 1
    hasContinuation := true
    continuation := some (continuationArguments next)
    state := result }

-- The result relation has been mutated in an otherwise fresh context.
def resultContext (tables : SinkTables Row Out) (key : ConsumerKey) (budget : WorkBudget) (row : StreamConsumer)
    (result : List Out) : SinkContext Row Out :=
  { boundStart tables key budget row with tables := { tables with state := result } }

def passedContext (tables : SinkTables Row Out) (key : ConsumerKey) (budget : WorkBudget) (row : StreamConsumer)
    (chunk : EffectChunk Row) (result : List Out) : SinkContext Row Out :=
  ((resultContext tables key budget row result).inputMoved (movedInput tables.input key row (row.nextChunkSeq + 1)
    (carriedFrontier row chunk) ⟨chunk.rowCount, chunk.payloadBytes, 0, 0⟩).stream).withContinuation none

def insideContext (tables : SinkTables Row Out) (key : ConsumerKey) (budget : WorkBudget) (row : StreamConsumer)
    (next : SinkContinuation) (result : List Out) : SinkContext Row Out :=
  (resultContext tables key budget row result).withContinuation (some (continuationArguments next))

theorem cursor_move_fits : MoveFits tables.input row (row.nextChunkSeq + 1) (carriedFrontier row chunk) := by
  have good := here.stands.good
  exact chunk_move_fits good.input here.stands.first chunk here.stored here.atCursor _ (frontier_carried row chunk)

theorem advance_completed_ok (result : List Out) {frontier : Lsn} (carried : frontier = carriedFrontier row chunk) :
    advanceCompletedChunk (resultContext tables key budget row result) chunk frontier =
      .ok ((resultContext tables key budget row result).inputMoved (movedInput tables.input key row (row.nextChunkSeq + 1)
        (carriedFrontier row chunk) ⟨chunk.rowCount, chunk.payloadBytes, 0, 0⟩).stream) := by
  subst carried
  have good := here.stands.good
  have fits := cursor_move_fits here
  have causal := operator_move_causal good.input good.operator here.stored here.atCursor
    ⟨chunk.rowCount, chunk.payloadBytes, 0, 0⟩
  have atCursor : (resultContext tables key budget row result).input.nextChunkSeq = chunk.chunkSeq := here.atCursor.symm
  have raised : ¬ carriedFrontier row chunk < (resultContext tables key budget row result).input.consumedFrontierLsn :=
    Nat.not_lt.mpr fits.raised
  have advanced := advance_input_ok (resultContext tables key budget row result) row here.stands.found rfl rfl
    (row.nextChunkSeq + 1) (carriedFrontier row chunk) ⟨chunk.rowCount, chunk.payloadBytes, 0, 0⟩ fits causal
  unfold advanceCompletedChunk
  simp only [atCursor, raised, ne_eq, not_true_eq_false, decide_false, Bool.or_self, not_refused,
    ok_bind]
  rw [here.atCursor]
  exact advanced

omit here in
theorem replace_ok (stands : Stands spec key tables row continuation) (context : SinkContext Row Out)
    (sameSaved : context.tables.continuation = tables.continuation)
    (bound : context.continuationPresence = some tables.continuation.isSome) (next : Option SinkContinuation) :
    replaceContinuation context continuation next = .ok (context.withContinuation (next.map continuationArguments)) := by
  unfold replaceContinuation
  rw [← stands.applying.saved, ← sameSaved]
  exact replace_continuation_ok context _ "Sink" (by rw [bound, sameSaved])

omit here in
-- A kernel step that leaves its context quiet commits.
theorem sink_runs (started : begin tables key budget = .ok (.ready (startContext tables key budget row)))
    (operator : (startContext tables key budget row).input.producer.isSource = false) (context : SinkContext Row Out)
    (quiet : Quiet context) (phase : KernelPhase) (supported : phase ∈ [KernelPhase.process, .frontier]) (usage : WorkUsage)
    (hasContinuation : Bool) (progress : hasContinuation = true → context.continuationChanged = true)
    (bound : context.continuationPresence = some hasContinuation) (sameBudget : context.budget = budget)
    (valid : usage.validate budget = .ok ()) (expected : context.tables.revision = context.expectedRevision)
    (stepped : step spec (startContext tables key budget row) =
      (transition context phase usage).map fun receipt => (context, receipt)) :
    stepSink spec tables key budget =
      .ok { context.tables with revision := context.tables.revision + 1, hasContinuation := hasContinuation } := by
  rw [← sameBudget] at valid
  rw [sink_transition_ok context quiet phase usage progress bound valid] at stepped
  have samePhase : (sinkReceipt context phase usage hasContinuation).phase = phase := rfl
  have committed := sink_commit_ok context quiet phase usage progress bound valid expected
  unfold stepSink runKernel
  rw [started]
  simp only [ok_bind, operator, stepped, Except.map, samePhase, supported, not_true_eq_false, ne_eq, decide_false,
    not_refused]
  exact committed

section Frontier

variable (kind : chunk.chunkKind = .frontier)

include kind

-- A frontier moves the cursor, and writes nothing.
theorem step_frontier : stepSink spec tables key budget = .ok (passedTables tables key row chunk tables.state) := by
  have good := here.stands.good
  have counted := (good.stored chunk (chunk_produced here)).counted
  have rows : chunk.rowCount = 0 := by
    rw [counted.rows, counted.empty kind]
    rfl
  have bytes : chunk.payloadBytes = 0 := by
    rw [counted.bytes, counted.empty kind]
    rfl
  obtain ⟨_, start, whole⟩ := frontier_start here kind
  obtain ⟨member, _⟩ := found_consumer tables.input key row here.stands.found
  have raised := frontier_ahead good.input good.operator member here.stands.flat
    (chunk_produced here) (Nat.le_of_eq here.atCursor.symm)
  have carried : chunk.chunkLsn = carriedFrontier row chunk := by
    simp only [carriedFrontier, kind]
    exact (Nat.max_eq_right raised).symm
  have advanced := advance_completed_ok budget here tables.state carried
  have replaced := replace_ok here.stands ((resultContext tables key budget row tables.state).inputMoved
    (movedInput tables.input key row (row.nextChunkSeq + 1) (carriedFrontier row chunk)
      ⟨chunk.rowCount, chunk.payloadBytes, 0, 0⟩).stream) rfl rfl none
  have isStart : boundStart tables key budget row = resultContext tables key budget row tables.state := rfl
  have consumes := step_consumes budget here
  rw [kind] at consumes
  have stepped : step spec (startContext tables key budget row) =
      (transition (passedContext tables key budget row chunk tables.state) .frontier {}).map fun receipt =>
        (passedContext tables key budget row chunk tables.state, receipt) := by
    rw [consumes]
    unfold consumed consumeFrontier
    simp only [start, whole, rows, bytes, ne_eq, not_true_eq_false, decide_false, Option.isSome_none, Bool.or_self,
      not_refused, ok_bind]
    rw [isStart, advanced]
    simp only [ok_bind]
    rw [replaced]
    rfl
  exact sink_runs budget (sink_begins budget here) (source_is_operator budget here) _ ⟨rfl, rfl⟩ .frontier
    (by simp) {} false (fun saved => by cases saved) rfl rfl (usage_none budget) rfl stepped

end Frontier

section Data

variable (kind : chunk.chunkKind = .data)

-- The rows a page may read.
def pageRows (budget : WorkBudget) (continuation : SinkContinuation) (chunk : EffectChunk Row) : List (EffectRow Row) :=
  (chunk.payload.drop continuation.position.rowOrdinal).take budget.maxInputRows

def startPlan (budget : WorkBudget) (continuation : SinkContinuation) : PagePlan :=
  ⟨[], { budget := budget, maxTransitions := budget.maxInputRows }, some continuation⟩

-- A page of a data step, as the loop plans it.
structure Paged (spec : SinkSpec Row Out) (streamId : Nat) (budget : WorkBudget) (continuation : SinkContinuation)
    (chunk : EffectChunk Row) (actions : List SinkAction) (quantum : WorkQuantum) (next : Option SinkContinuation) :
    Prop where
  ran : planHeads continuation.position chunk.payload.length
    (headsFrom spec continuation.position.rowOrdinal (pageRows budget continuation chunk)) (startPlan budget continuation) =
      .ok ⟨actions, quantum, next⟩
  planned : Planned spec streamId chunk (startPlan budget continuation) continuation actions quantum next
  some : actions ≠ []

def pageTables (tables : SinkTables Row Out) (key : ConsumerKey) (row : StreamConsumer) (chunk : EffectChunk Row)
    (result : List Out) : Option SinkContinuation → SinkTables Row Out
  | none => passedTables tables key row chunk result
  | some next => insideTables tables next result

omit here in
theorem quantum_starts (budget : WorkBudget) : QuantumFits { budget := budget, maxTransitions := budget.maxInputRows } ∧
    ({ budget := budget, maxTransitions := budget.maxInputRows : WorkQuantum }).remaining.isSome = true := by
  refine ⟨⟨rfl, ⟨Nat.zero_le _, .inl (Nat.zero_le _)⟩, ⟨Nat.zero_le _, .inl (Nat.zero_le _)⟩⟩, ?_⟩
  have rows := budget.inputRowsPositive
  unfold WorkQuantum.remaining
  rw [if_neg (Nat.not_le.mpr rows), dif_pos ⟨rows, budget.inputBytesPositive, budget.outputRowsPositive,
    budget.outputBytesPositive⟩]
  rfl

include kind

theorem page_planned : ∃ actions quantum next,
    Paged spec tables.input.stream.streamId budget continuation chunk actions quantum next := by
  have good := here.stands.good
  have cursor := cursor_inside here kind
  have signed := (good.stored chunk (chunk_produced here)).signed
  obtain ⟨fits, more⟩ := quantum_starts budget
  have rest : chunk.payload.drop continuation.position.rowOrdinal = pageRows budget continuation chunk ++
      (chunk.payload.drop continuation.position.rowOrdinal).drop budget.maxInputRows := (List.take_append_drop _ _).symm
  have sameStream : continuation.position.streamId = tables.input.stream.streamId := by rw [cursor.position]
  have sameChunk : continuation.position.chunkSeq = chunk.chunkSeq := by rw [cursor.position]
  obtain ⟨actions, quantum, next, ran, planned, some⟩ := plan_heads_ok spec tables.input.stream.streamId chunk
    good.streamId (here.atCursor ▸ here.stands.first) continuation.position sameStream sameChunk
    (pageRows budget continuation chunk) _ continuation.position.rowOrdinal (startPlan budget continuation) continuation rfl rfl
    cursor fits more rest (fun row member => signed row (List.mem_of_mem_drop (List.mem_of_mem_take member)))
  refine ⟨actions, quantum, next, ran, planned, some rfl ?_⟩
  unfold pageRows
  rw [ne_eq, List.take_eq_nil_iff, List.drop_eq_nil_iff, not_or]
  exact ⟨Nat.ne_of_gt budget.inputRowsPositive, Nat.not_le.mpr cursor.inside⟩

omit kind in
theorem heads_read (cursor : CursorIn tables.input.stream.streamId chunk continuation) :
    effectHeads spec chunk continuation.position.rowOrdinal budget.maxInputRows =
      .ok (headsFrom spec continuation.position.rowOrdinal (pageRows budget continuation chunk)) := by
  have signed := (here.stands.good.stored chunk (chunk_produced here)).signed
  have present : (pageRows budget continuation chunk).isEmpty = false := by
    rw [List.isEmpty_eq_false_iff, pageRows, ne_eq, List.take_eq_nil_iff, List.drop_eq_nil_iff, not_or]
    exact ⟨Nat.ne_of_gt budget.inputRowsPositive, Nat.not_le.mpr cursor.inside⟩
  have valid : ((headsFrom spec continuation.position.rowOrdinal (pageRows budget continuation chunk)).any fun head =>
      decide (head.weight = 0) || decide (head.rowBytes = 0)) = false := by
    rw [List.any_eq_false]
    intro head member
    obtain ⟨item, inside, rfl⟩ := List.mem_map.mp member
    have nonzero := signed item.1 (List.mem_of_mem_drop (List.mem_of_mem_take (List.fst_mem_of_mem_zipIdx inside)))
    simp [nonzero, SinkSpec.rowBytes]
  unfold effectHeads
  unfold pageRows at present valid
  simp only [present, valid, not_refused, ok_bind]
  rfl

variable {budget} {actions : List SinkAction} {quantum : WorkQuantum} {next : Option SinkContinuation}
  (paged : Paged spec tables.input.stream.streamId budget continuation chunk actions quantum next)

include paged

omit here kind [DecidableEq Out] in
theorem page_rows : quantum.used.outputRows = units (effectsOf spec chunk actions) := by
  rw [paged.planned.rows]
  exact Nat.zero_add _

-- The statement's count decides whether the step goes on.
theorem consume_data_checks : consumeData spec (boundStart tables key budget row) continuation chunk =
    (checkMutated quantum.used.outputRows
      ((expanded ((effectsOf spec chunk actions).filter fun effect => decide (0 < effect.2))).length +
        (below (weight (retractions (effectsOf spec chunk actions))) tables.state).length)).bind fun _ =>
    finishPage (resultContext tables key budget row (mutatedResult tables.state (effectsOf spec chunk actions)))
      continuation chunk next quantum.used := by
  have cursor := cursor_inside here kind
  have counted := (here.stands.good.stored chunk (chunk_produced here)).counted
  have inside : ¬ chunk.payload.length ≤ continuation.position.rowOrdinal := Nat.not_le.mpr cursor.inside
  have metadata : validatePayloadMetadata spec chunk = .ok () := by
    simp [validatePayloadMetadata, counted.rows, counted.bytes, refuse]
  have heads := heads_read budget here cursor
  have some : actions.isEmpty = false := List.isEmpty_eq_false_iff.mpr paged.some
  have mutated := mutate_ok tables.state actions (effectsOf spec chunk actions) paged.some paged.planned.signed
  have ran := paged.ran
  unfold startPlan at ran
  have isBudget : (boundStart tables key budget row).budget = budget := rfl
  have isState : (boundStart tables key budget row).tables.state = tables.state := rfl
  unfold consumeData
  simp only [counted.rows, inside, decide_false, isBudget, isState, heads, metadata, not_refused,
    ok_bind, ite_self, ran, some, mutated]
  rfl

def pageContext (tables : SinkTables Row Out) (key : ConsumerKey) (budget : WorkBudget) (row : StreamConsumer)
    (chunk : EffectChunk Row) (result : List Out) : Option SinkContinuation → SinkContext Row Out
  | none => passedContext tables key budget row chunk result
  | some next => insideContext tables key budget row next result

omit paged in
theorem finish_page_ok (result : List Out) (usage : WorkUsage) (next : Option SinkContinuation) :
    finishPage (resultContext tables key budget row result) continuation chunk next usage =
      (transition ((pageContext tables key budget row chunk result next).withStateRows usage.outputRows) .process usage).map
        fun receipt => ((pageContext tables key budget row chunk result next).withStateRows usage.outputRows, receipt) := by
  unfold finishPage
  cases next with
  | none =>
      have carried : row.consumedFrontierLsn = carriedFrontier row chunk := by simp only [carriedFrontier, kind]
      have advanced := advance_completed_ok budget here result carried
      have replaced := replace_ok here.stands ((resultContext tables key budget row result).inputMoved
        (movedInput tables.input key row (row.nextChunkSeq + 1) (carriedFrontier row chunk)
          ⟨chunk.rowCount, chunk.payloadBytes, 0, 0⟩).stream) rfl rfl none
      have isFrontier : (resultContext tables key budget row result).input.consumedFrontierLsn = row.consumedFrontierLsn := rfl
      simp only [isFrontier, advanced, ok_bind, replaced]
      rfl
  | some next =>
      have replaced := replace_ok here.stands (resultContext tables key budget row result) rfl rfl (some next)
      simp only [pure, Except.pure, ok_bind, replaced]
      rfl

-- A data step whose retractions all find their rows commits.
theorem step_data (holds : Holds tables.state (effectsOf spec chunk actions)) : stepSink spec tables key budget =
    .ok (pageTables tables key row chunk (mutatedResult tables.state (effectsOf spec chunk actions)) next) := by
  have planned := paged.planned
  have changing := cut_present _ _ _ planned.cut
  have checked := (mutated_all tables.state (effectsOf spec chunk actions) changing).mpr holds
  rw [← page_rows paged] at checked
  have consumes := step_consumes budget here
  rw [kind] at consumes
  have stepped := consumes.trans (consume_data_checks here kind paged)
  have passes : checkMutated quantum.used.outputRows quantum.used.outputRows = .ok () := by simp [checkMutated, refuse]
  rw [checked, passes] at stepped
  have finished := stepped.trans (finish_page_ok here kind (mutatedResult tables.state (effectsOf spec chunk actions))
    quantum.used next)
  have valid : quantum.used.validate budget = .ok () := by
    have fits := planned.fits
    have isBudget : quantum.budget = budget := planned.budget
    rw [← isBudget]
    exact usage_valid _ _ ⟨fits.input.counted, fits.input.sized⟩ ⟨fits.output.counted, fits.output.sized⟩
  have started := sink_begins budget here
  have operator := source_is_operator budget here
  cases next with
  | none =>
      exact sink_runs budget started operator _ ⟨rfl, rfl⟩ .process (by simp) quantum.used false
        (fun saved => by cases saved) rfl rfl valid rfl finished
  | some next =>
      exact sink_runs budget started operator _ ⟨rfl, rfl⟩ .process (by simp) quantum.used true
        (fun _ => Bool.or_true _) rfl rfl valid rfl finished

-- And no other does.
theorem step_data_needs (after : SinkTables Row Out) (ok : stepSink spec tables key budget = .ok after) :
    Holds tables.state (effectsOf spec chunk actions) := by
  have changing := cut_present _ _ _ paged.planned.cut
  obtain ⟨stepped, receipt, steps, _⟩ := run_kernel_steps _ _ _ _ _ _ _ (sink_begins budget here) after ok
  have consumes := step_consumes budget here
  rw [kind] at consumes
  rw [consumes.trans (consume_data_checks here kind paged)] at steps
  obtain ⟨_, checked, _⟩ := bind_ok_iff.mp steps
  have same := refuse_ok.mp checked
  rw [decide_eq_false_iff_not, not_not, page_rows paged] at same
  exact (mutated_all tables.state (effectsOf spec chunk actions) changing).mp same

end Data

end Step

end Shiba.Sink
