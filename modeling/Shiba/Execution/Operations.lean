import Shiba.Execution.Context

set_option autoImplicit false

namespace Shiba.Execution

open Shiba.Stream

variable {Row Out Cont State : Type}

-- An output stream a stage may write to.
structure OutputReady (stream : EffectStream Out) : Prop where
  operator : stream.isSource = false
  watched : stream.consumers ≠ []
  numbered : 1 ≤ stream.nextChunkSeq
  flowing : stream.backpressured = false

structure FrontierFits (stream : EffectStream Out) (lsn : Lsn) : Prop where
  numbers : stream.nextChunkSeq ≠ bigintMax
  rises : reachedBy stream.publishedFrontierLsn lsn = false
  covers : behind stream.latestDataLsn lsn = false

structure DataFits (stream : EffectStream Out) (lsn : Lsn) : Prop where
  numbers : stream.nextChunkSeq ≠ bigintMax
  rises : reachedBy stream.publishedFrontierLsn lsn = false
  follows : behind stream.latestDataLsn lsn = false

theorem operator_producer (stream : EffectStream Out) (operator : stream.isSource = false) :
    ∃ resultOid stageId, stream.producer = .operator resultOid stageId := by
  cases producer : stream.producer with
  | source slotGeneration sourceOid => simp [EffectStream.isSource, producer, Producer.isSource] at operator
  | operator resultOid stageId => exact ⟨resultOid, stageId, rfl⟩

section

variable (stream : EffectStream Out) (published : Option Lsn) (lsn : Lsn) (operator : stream.isSource = false)

include operator

theorem data_causal (rises : reachedBy stream.publishedFrontierLsn lsn = false) :
    causalFault stream published .data lsn = none := by
  obtain ⟨resultOid, stageId, producer⟩ := operator_producer stream operator
  simp [causalFault, producer, rises]

theorem frontier_causal : causalFault stream published .frontier lsn = none ↔
      reachedBy stream.publishedFrontierLsn lsn = false ∧ behind stream.latestDataLsn lsn = false := by
  obtain ⟨resultOid, stageId, producer⟩ := operator_producer stream operator
  simp only [causalFault, producer]
  split
  · rename_i bad
    simp only [Bool.or_eq_true] at bad
    simp only [reduceCtorEq, false_iff, not_and]
    intro rises covers
    simp [rises, covers] at bad
  · rename_i good
    simp only [Bool.or_eq_true, not_or] at good
    simpa using good

end

theorem append_ok (history : StreamHistory Out) (ready : OutputReady history.stream) (kind : ChunkKind)
    (rowCount payloadBytes : Nat) (chunkLsn : Lsn) (payload : List (EffectRow Out))
    (numbers : history.stream.nextChunkSeq ≠ bigintMax)
    (fits : resourcesFit history.stream.toStreamLimits kind rowCount payloadBytes = true)
    (causal : causalFault history.stream history.published kind chunkLsn = none) :
    appendHistory history history.stream.nextChunkSeq kind rowCount payloadBytes chunkLsn payload =
      .ok (appendedHistory history kind rowCount payloadBytes chunkLsn payload,
        .appended history.stream.nextChunkSeq) := by
  have positive : ¬ history.stream.nextChunkSeq < 1 := Nat.not_lt.mpr ready.numbered
  have watched : history.stream.consumers.isEmpty = false := by simpa using ready.watched
  simp [appendHistory, appendEffectStreamChunk, positive, numbers, fits, causal, watched, ready.flowing, Except.map,
    appendedHistory, appendedChunks, newChunk]

-- A context whose output is still as its transaction found it.
structure Untouched (context : StepContext Row Out Cont State) : Prop where
  output : context.output = outputState context.tables.output.stream
  frontier : context.frontierOutput = none

namespace StepContext

def frontierAppended (context : StepContext Row Out Cont State) (frontierLsn : Lsn) : StepContext Row Out Cont State :=
  { context with
    tables := { context.tables with output := appendedHistory context.tables.output .frontier 0 0 frontierLsn [] }
    output := { context.output with
      nextChunkSeq := context.output.nextChunkSeq + 1, publishedFrontierLsn := some frontierLsn }
    frontierOutput := some context.output.nextChunkSeq }

def dataRecorded (context : StepContext Row Out Cont State) (rows bytes : Nat) (lsn : Lsn)
    (payload : List (EffectRow Out)) : StepContext Row Out Cont State :=
  { context with
    output := { context.output with
      nextChunkSeq := context.output.nextChunkSeq + 1
      pendingDataChunk := some ⟨context.output.nextChunkSeq, rows, bytes, lsn, payload⟩ } }

def withContinuation (context : StepContext Row Out Cont State) (next : Option Cont) : StepContext Row Out Cont State :=
  { context with
    tables := { context.tables with continuation := next }
    continuationPresence := some next.isSome
    continuationChanged := context.continuationChanged || context.tables.continuation.isSome || next.isSome }

def withStateRows (context : StepContext Row Out Cont State) (rows : Nat) : StepContext Row Out Cont State :=
  { context with stateRows := context.stateRows + rows }

def inputMoved (context : StepContext Row Out Cont State) (stream : EffectStream Row) : StepContext Row Out Cont State :=
  { context with
    tables := { context.tables with input := { context.tables.input with stream } }
    inputAdvanced := true }

variable (context : StepContext Row Out Cont State)

section Frontier

variable (untouched : Untouched context) (lsn : Lsn)

include untouched

theorem record_frontier_fits (tables : StageTables Row Out Cont State) (chunkSeq : Nat)
    (after : StepContext Row Out Cont State) (ok : recordFrontierOutput { context with tables } chunkSeq lsn = .ok after) :
    FrontierFits context.tables.output.stream lsn := by
  unfold recordFrontierOutput at ok
  have ok := past_check (past_check ok)
  obtain ⟨causal, ok⟩ := refuse_bind_ok.mp ok
  obtain ⟨numbers, _⟩ := refuse_bind_ok.mp ok
  simp only [untouched.output, outputState, Bool.or_eq_false_iff, decide_eq_false_iff_not] at causal numbers
  exact ⟨numbers, causal.1, causal.2⟩

theorem record_frontier_ok (fits : FrontierFits context.tables.output.stream lsn) (tables : StageTables Row Out Cont State) :
    recordFrontierOutput { context with tables } context.output.nextChunkSeq lsn =
      .ok { context with
        tables
        output := { context.output with
          nextChunkSeq := context.output.nextChunkSeq + 1, publishedFrontierLsn := some lsn }
        frontierOutput := some context.output.nextChunkSeq } := by
  have pending : context.output.pendingDataChunk = none := by rw [untouched.output]; rfl
  have numbers : context.output.nextChunkSeq ≠ bigintMax := by rw [untouched.output]; exact fits.numbers
  have rises : reachedBy context.output.publishedFrontierLsn lsn = false := by rw [untouched.output]; exact fits.rises
  have covers : behind context.output.latestDataLsn lsn = false := by rw [untouched.output]; exact fits.covers
  simp [recordFrontierOutput, untouched.frontier, pending, numbers, rises, covers, refuse, bind, Except.bind, pure,
    Except.pure]

theorem append_frontier_fits {after : StepContext Row Out Cont State} (ok : context.appendFrontier lsn = .ok after) :
    FrontierFits context.tables.output.stream lsn := by
  unfold appendFrontier at ok
  obtain ⟨⟨output, outcome⟩, _, ok⟩ := bind_ok_iff.mp ok
  cases outcome with
  | blocked => cases ok
  | discarded => cases ok
  | appended sequence =>
      obtain ⟨_, ok⟩ := refuse_bind_ok.mp ok
      exact record_frontier_fits context untouched lsn _ _ _ ok

theorem append_frontier_ok (ready : OutputReady context.tables.output.stream)
    (fits : FrontierFits context.tables.output.stream lsn) :
    context.appendFrontier lsn = .ok (context.frontierAppended lsn) := by
  have sameSeq : context.output.nextChunkSeq = context.tables.output.stream.nextChunkSeq := by
    rw [untouched.output]
    rfl
  have causal := (frontier_causal _ context.tables.output.published lsn ready.operator).mpr ⟨fits.rises, fits.covers⟩
  have stored := append_ok _ ready .frontier 0 0 lsn [] fits.numbers rfl causal
  rw [← sameSeq] at stored
  unfold appendFrontier
  rw [stored]
  simp only [bind, Except.bind, ne_eq, not_true_eq_false, decide_false, not_refused]
  exact record_frontier_ok context untouched lsn fits _

end Frontier

section Data

variable (untouched : Untouched context) (rows bytes : Nat) (lsn : Lsn) (payload : List (EffectRow Out))

include untouched

theorem record_data_numbers (after : StepContext Row Out Cont State)
    (ok : context.recordOutputAppend (.new context.output.nextChunkSeq) rows bytes lsn payload = .ok after) :
    context.tables.output.stream.nextChunkSeq ≠ bigintMax := by
  unfold recordOutputAppend at ok
  have ok := past_check (past_check (past_check (past_check (past_check ok))))
  obtain ⟨numbers, _⟩ := refuse_bind_ok.mp ok
  simpa [untouched.output, outputState] using numbers

theorem record_data_ok (fits : DataFits context.tables.output.stream lsn) (someRows : 0 < rows) (someBytes : 0 < bytes) :
    context.recordOutputAppend (.new context.output.nextChunkSeq) rows bytes lsn payload =
      .ok (context.dataRecorded rows bytes lsn payload) := by
  have numbers : context.output.nextChunkSeq ≠ bigintMax := by rw [untouched.output]; exact fits.numbers
  have rises : reachedBy context.output.publishedFrontierLsn lsn = false := by rw [untouched.output]; exact fits.rises
  have follows : behind context.output.latestDataLsn lsn = false := by rw [untouched.output]; exact fits.follows
  simp [recordOutputAppend, untouched.frontier, numbers, rises, follows, Nat.ne_of_gt someRows, Nat.ne_of_gt someBytes,
    refuse, bind, Except.bind, pure, Except.pure, dataRecorded]

end Data

theorem replace_continuation_ok [DecidableEq Cont] (next : Option Cont) (owner : String)
    (bound : context.continuationPresence = some context.tables.continuation.isSome) :
    context.replaceContinuationCas context.tables.continuation next owner = .ok (context.withContinuation next) := by
  unfold replaceContinuationCas prepareContinuationReplace withContinuation
  rw [bound]
  cases context.tables.continuation <;> cases next <;> simp [refuse, bind, Except.bind, pure, Except.pure]

theorem clear_continuation_ok (owner : String) (bound : context.continuationPresence = some true)
    (present : context.tables.continuation.isSome = true) :
    context.clearContinuationLocked owner = .ok (context.withContinuation none) := by
  unfold clearContinuationLocked prepareContinuationReplace withContinuation
  rw [bound]
  cases saved : context.tables.continuation with
  | none => simp [saved] at present
  | some continuation => simp [refuse, bind, Except.bind, pure, Except.pure]

theorem delete_stored_ok (owner : String)
    (bound : context.continuationPresence = some context.tables.continuation.isSome) :
    (if context.tables.continuation.isSome then context.clearContinuationLocked owner else .ok context) =
      .ok (context.withContinuation none) := by
  cases saved : context.tables.continuation with
  | some continuation =>
      have present : context.tables.continuation.isSome = true := by rw [saved]; rfl
      exact clear_continuation_ok context owner (bound.trans (congrArg some present)) present
  | none =>
      rw [saved] at bound
      have same : context.withContinuation none = context := by
        obtain ⟨⟨_, _, _, _, _, _⟩, _, _, _, _, _, _, _, _, _, _, _⟩ := context
        simp only at saved bound
        simp [withContinuation, saved, bound]
      rw [same]
      rfl

-- A move of the cursor by one chunk at most, as the stream accepts it.
structure MoveFits (history : StreamHistory Row) (row : StreamConsumer) (next : Nat) (frontier : Lsn) : Prop where
  onward : row.nextChunkSeq ≤ next
  raised : row.consumedFrontierLsn ≤ frontier
  moves : ¬ (next = row.nextChunkSeq ∧ frontier = row.consumedFrontierLsn)
  short : next ≤ row.nextChunkSeq + 1
  first : 1 ≤ row.nextChunkSeq
  produced : next ≤ history.stream.nextChunkSeq
  retained : (chunkRange history.stream row.nextChunkSeq next).length = next - row.nextChunkSeq

def moveOf (row : StreamConsumer) (next : Nat) (frontier : Lsn) (usage : WorkUsage) : ConsumerAdvance :=
  ⟨row.nextChunkSeq, next, row.consumedFrontierLsn, frontier, max (next - row.nextChunkSeq) 1, usage.inputRows,
    usage.inputBytes⟩

theorem advance_ok {history : StreamHistory Row} {key : ConsumerKey} {row : StreamConsumer}
    (found : history.stream.findConsumer key = some row) {next : Nat} {frontier : Lsn} {usage : WorkUsage}
    (fits : MoveFits history row next frontier)
    (causal : frontierFault history.stream history.published row (moveOf row next frontier usage) = none) :
    advanceEffectStreamConsumer history.stream history.published key (moveOf row next frontier usage) =
      .ok { history.stream with
        consumers := history.stream.consumers.map (moveConsumer key (moveOf row next frontier usage)) } := by
  have valid : validAdvance (moveOf row next frontier usage) = true := by
    simp only [validAdvance, Bool.and_eq_true, decide_eq_true_eq, Bool.not_eq_true', Bool.and_eq_false_iff,
      decide_eq_false_iff_not]
    refine ⟨⟨⟨⟨⟨fits.first, fits.onward⟩, fits.raised⟩, ?_⟩, Nat.le_max_right _ _⟩, Nat.le_max_left _ _⟩
    exact not_and_or.mp fits.moves
  have single : ¬ 1 < next - row.nextChunkSeq := by
    have short := fits.short
    omega
  unfold advanceEffectStreamConsumer
  rw [valid, found]
  simp only [Bool.not_true, Bool.false_eq_true, if_false, causal]
  simp [moveOf, Nat.not_lt.mpr fits.produced, fits.retained, single]

variable (row : StreamConsumer) {phase : KernelPhase} {hasContinuation : Bool}

section

variable (found : context.tables.input.stream.findConsumer context.key = some row)
  (sameNext : context.input.nextChunkSeq = row.nextChunkSeq)
  (sameFrontier : context.input.consumedFrontierLsn = row.consumedFrontierLsn) (next : Nat) (frontier : Lsn)
  (usage : WorkUsage)

include found sameNext sameFrontier

theorem advance_input_ok (fits : MoveFits context.tables.input row next frontier)
    (causal : frontierFault context.tables.input.stream context.tables.input.published row
      (moveOf row next frontier usage) = none) :
    context.advanceInput next frontier usage = .ok (context.inputMoved { context.tables.input.stream with
      consumers := context.tables.input.stream.consumers.map
        (moveConsumer context.key (moveOf row next frontier usage)) }) := by
  have onward : ¬ next < row.nextChunkSeq := Nat.not_lt.mpr fits.onward
  have raised : ¬ frontier < row.consumedFrontierLsn := Nat.not_lt.mpr fits.raised
  have limit : ¬ 2147483647 < max (next - row.nextChunkSeq) 1 := by
    have short := fits.short
    omega
  have moved := advance_ok found fits causal
  unfold moveOf at moved
  have moves : ¬ (decide (next = row.nextChunkSeq) && decide (frontier = row.consumedFrontierLsn)) = true := by
    simpa using fits.moves
  simp only [advanceInput, sameNext, sameFrontier, onward, raised, moves, limit, decide_false, Bool.false_or,
    not_refused, moved, bind, Except.bind, pure, Except.pure]
  rfl

theorem advance_input_causal (after : StepContext Row Out Cont State)
    (ok : context.advanceInput next frontier usage = .ok after) :
    frontierFault context.tables.input.stream context.tables.input.published row (moveOf row next frontier usage) =
      none := by
  unfold advanceInput at ok
  have ok := past_check (past_check ok)
  obtain ⟨stream, moved, _⟩ := bind_ok_iff.mp ok
  obtain ⟨other, otherFound, _, _, _, _, _, causal, _⟩ := advance_cases moved
  obtain rfl := Option.some.inj (found.symm.trans otherFound)
  rw [sameNext, sameFrontier] at causal
  exact causal

end

-- What a kernel may report about its output in each phase.
def OutputAgrees (phase : KernelPhase) (usage : WorkUsage) : OutputFacts → Prop
  | .none => usage.outputRows = 0
  | .data _ => usage.outputRows ≠ 0 ∧ phase ≠ .frontier
  | .frontier _ => usage.outputRows = 0 ∧ usage.outputBytes = 0 ∧ phase = .frontier

theorem receipt_valid {usage : WorkUsage} (progress : hasContinuation = true → context.continuationChanged = true)
    (agrees : OutputAgrees phase usage context.outputFacts) :
    (context.stepReceipt phase usage hasContinuation).validate = .ok () := by
  have counted : ¬ (0 < context.stateRows ∧ context.stateRows = 0) := by omega
  unfold stepReceipt progressWitness
  cases output : context.outputFacts with
  | none =>
      have unwritten : usage.outputRows = 0 := by simpa [output, OutputAgrees] using agrees
      cases hasContinuation with
      | false => simp [StepReceipt.validate, unwritten, counted, refuse, bind, Except.bind, OutputFacts.isData,
          OutputFacts.isFrontier]
      | true => simp [StepReceipt.validate, unwritten, counted, refuse, bind, Except.bind, OutputFacts.isData,
          OutputFacts.isFrontier, progress rfl, ProgressWitness.hasDurableProgress]
  | data sequence =>
      have written : usage.outputRows ≠ 0 ∧ phase ≠ .frontier := by simpa [output, OutputAgrees] using agrees
      cases hasContinuation with
      | false => simp [StepReceipt.validate, written, counted, refuse, bind, Except.bind, OutputFacts.isData,
          OutputFacts.isFrontier]
      | true => simp [StepReceipt.validate, written, counted, refuse, bind, Except.bind, OutputFacts.isData,
          OutputFacts.isFrontier, progress rfl, ProgressWitness.hasDurableProgress]
  | frontier sequence =>
      have empty : usage.outputRows = 0 ∧ usage.outputBytes = 0 ∧ phase = .frontier := by
        simpa [output, OutputAgrees] using agrees
      cases hasContinuation with
      | false => simp [StepReceipt.validate, empty, counted, refuse, bind, Except.bind, OutputFacts.isData,
          OutputFacts.isFrontier]
      | true => simp [StepReceipt.validate, empty, counted, refuse, bind, Except.bind, OutputFacts.isData,
          OutputFacts.isFrontier, progress rfl, ProgressWitness.hasDurableProgress]

theorem transition_ok (phase : KernelPhase) (usage : WorkUsage) (hasContinuation : Bool)
    (bound : context.continuationPresence = some hasContinuation) (valid : usage.validate context.budget = .ok ())
    (progress : hasContinuation = true → context.continuationChanged = true)
    (agrees : OutputAgrees phase usage context.outputFacts) :
    context.transition phase usage = .ok (context.stepReceipt phase usage hasContinuation) := by
  simp [transition, valid, bound, receipt_valid context progress agrees, bind, Except.bind, pure, Except.pure]

theorem transition_facts_ok {facts : PrimitiveFacts} (bound : context.continuationPresence = some hasContinuation)
    (valid : facts.usage.validate context.budget = .ok ())
    (progress : hasContinuation = true → context.continuationChanged = true) (same : context.outputFacts = facts.output)
    (agrees : OutputAgrees phase facts.usage facts.output) (data : facts.output.isFrontier = false)
    (numbered : ∀ sequence, facts.output = .data sequence → sequence ≠ 0) :
    context.transitionFacts phase facts = .ok (context.withStateRows facts.stateRows,
      (context.withStateRows facts.stateRows).stepReceipt phase facts.usage hasContinuation) := by
  have protocol : facts.validateProtocol context.budget phase
      (if context.continuationPresence = some true then .continuing else .finished) = .ok () := by
    unfold PrimitiveFacts.validateProtocol PrimitiveFacts.validate
    cases output : facts.output with
    | none =>
        have unwritten : facts.usage.outputRows = 0 := by simpa [output, OutputAgrees] using agrees
        simp [valid, unwritten, refuse, bind, Except.bind, OutputFacts.isData, OutputFacts.isFrontier]
    | data sequence =>
        have written : facts.usage.outputRows ≠ 0 ∧ phase ≠ .frontier := by simpa [output, OutputAgrees] using agrees
        simp [valid, written, numbered sequence output, refuse, bind, Except.bind, OutputFacts.isData,
          OutputFacts.isFrontier]
    | frontier sequence => simp [output, OutputFacts.isFrontier] at data
  have moved := transition_ok (context.withStateRows facts.stateRows) phase facts.usage hasContinuation bound valid
    progress (by
      rw [← same] at agrees
      exact agrees)
  have reported : ((context.withStateRows facts.stateRows).stepReceipt phase facts.usage hasContinuation).output =
      facts.output := same
  unfold transitionFacts
  rw [protocol]
  change (do
    let receipt ← (context.withStateRows facts.stateRows).transition phase facts.usage
    refuse (decide (receipt.output ≠ facts.output)) "primitive output facts disagree with the step context"
    return (context.withStateRows facts.stateRows, receipt)) = _
  rw [moved]
  simp [reported, refuse, bind, Except.bind, pure, Except.pure]

-- A pending data chunk as the output stream takes it.
def publishedTables (context : StepContext Row Out Cont State) : StageTables Row Out Cont State :=
  match context.output.pendingDataChunk with
  | none => context.tables
  | some pending =>
      { context.tables with
        output := appendedHistory context.tables.output .data pending.rows pending.bytes pending.lsn pending.payload }

-- What commit asks of a pending data chunk.
def PendingFits (context : StepContext Row Out Cont State) : Prop :=
  ∀ pending, context.output.pendingDataChunk = some pending →
    OutputReady context.tables.output.stream ∧ pending.sequence = context.tables.output.stream.nextChunkSeq ∧
      DataFits context.tables.output.stream pending.lsn ∧
      resourcesFit context.tables.output.stream.toStreamLimits .data pending.rows pending.bytes = true

theorem publish_pending_ok (fits : PendingFits context) :
    context.publishPendingOutput = .ok { context with tables := context.publishedTables } := by
  unfold publishPendingOutput publishedTables
  cases chunk : context.output.pendingDataChunk with
  | none => rfl
  | some pending =>
      obtain ⟨ready, sequence, data, resources⟩ := fits pending chunk
      have stored := append_ok _ ready .data pending.rows pending.bytes pending.lsn pending.payload data.numbers resources
        (data_causal _ context.tables.output.published pending.lsn ready.operator data.rises)
      simp [sequence, stored, bind, Except.bind, refuse, pure, Except.pure]

-- Everything commit asks of a stepped context and its receipt.
structure Committable (context : StepContext Row Out Cont State) (phase : KernelPhase) (usage : WorkUsage)
    (hasContinuation : Bool) : Prop where
  bound : context.continuationPresence = some hasContinuation
  valid : usage.validate context.budget = .ok ()
  progress : hasContinuation = true → context.continuationChanged = true
  agrees : OutputAgrees phase usage context.outputFacts
  fits : PendingFits context
  expected : context.tables.revision = context.expectedRevision

def committedTables (context : StepContext Row Out Cont State) (hasContinuation : Bool) : StageTables Row Out Cont State :=
  { context.publishedTables with revision := context.tables.revision + 1, hasContinuation }

theorem commit_ok {usage : WorkUsage} (committable : Committable context phase usage hasContinuation) :
    context.commit (context.stepReceipt phase usage hasContinuation) = .ok (context.committedTables hasContinuation) := by
  have accepted := receipt_valid context committable.progress committable.agrees
  have authority : decide ((context.stepReceipt phase usage hasContinuation).completion = .continuing) =
      hasContinuation := by
    unfold stepReceipt
    cases hasContinuation <;> simp
  have same : context.publishedTables.revision = context.tables.revision := by
    unfold publishedTables
    split <;> rfl
  have sameUsage : (context.stepReceipt phase usage hasContinuation).usage = usage := rfl
  unfold commit committedTables
  simp [accepted, authority, sameUsage, committable.valid, committable.bound,
    publish_pending_ok context committable.fits, same, committable.expected, refuse, bind, Except.bind,
    pure, Except.pure]

end StepContext

-- The context of a ready step.
def startContext (tables : StageTables Row Out Cont State) (key : ConsumerKey) (budget : WorkBudget)
    (row : StreamConsumer) : StepContext Row Out Cont State where
  tables := tables
  key := key
  budget := budget
  expectedRevision := tables.revision
  checkpointHadContinuation := tables.hasContinuation
  input := inputState tables.input row
  output := outputState tables.output.stream

theorem begin_ready {tables : StageTables Row Out Cont State} {key : ConsumerKey} {budget : WorkBudget}
    {context : StepContext Row Out Cont State} (ready : begin tables key budget = .ok (.ready context)) :
    ∃ row, tables.input.stream.findConsumer key = some row ∧ tables.output.stream.backpressured = false ∧
      (tables.hasContinuation = true ∨ (inputState tables.input row).hasPending = true) ∧
      context = startContext tables key budget row := by
  unfold begin at ready
  split at ready
  · cases ready
  · rename_i row found
    simp only at ready
    split at ready
    · cases ready
    · rename_i flowing
      split at ready
      · cases ready
      · rename_i work
        refine ⟨row, found, by simpa using flowing, ?_, ?_⟩
        · by_cases saved : tables.hasContinuation = true
          · exact .inl saved
          · refine .inr ?_
            by_contra idle
            exact work (by simp [saved, idle])
        · simp only [Except.ok.injEq, StepContextStart.ready.injEq] at ready
          exact ready.symm

section Kernel

variable (phases : List KernelPhase) (fromSource : Bool)
  (kernel : StepContext Row Out Cont State → Except Fault (StepContext Row Out Cont State × StepReceipt))
  (tables : StageTables Row Out Cont State) (key : ConsumerKey) (budget : WorkBudget)
  (context : StepContext Row Out Cont State) (started : begin tables key budget = .ok (.ready context))

include started

theorem run_kernel_ok (isSource : context.input.producer.isSource = fromSource)
    (stepped : StepContext Row Out Cont State) (phase : KernelPhase) (usage : WorkUsage) (hasContinuation : Bool)
    (supported : phase ∈ phases)
    (steps : kernel context = .ok (stepped, stepped.stepReceipt phase usage hasContinuation))
    (committable : stepped.Committable phase usage hasContinuation) :
    runKernel phases fromSource kernel tables key budget = .ok (stepped.committedTables hasContinuation) := by
  have samePhase : (stepped.stepReceipt phase usage hasContinuation).phase = phase := rfl
  unfold runKernel
  rw [started]
  simp [isSource, steps, samePhase, supported, StepContext.commit_ok stepped committable, refuse, bind, Except.bind]

theorem run_kernel_steps (after : StageTables Row Out Cont State)
    (ran : runKernel phases fromSource kernel tables key budget = .ok after) :
    ∃ stepped receipt, kernel context = .ok (stepped, receipt) ∧ stepped.commit receipt = .ok after := by
  unfold runKernel at ran
  rw [started] at ran
  obtain ⟨_, isStart, ran⟩ := bind_ok_iff.mp ran
  obtain rfl := Except.ok.inj isStart
  obtain ⟨_, ran⟩ := refuse_bind_ok.mp ran
  obtain ⟨⟨stepped, receipt⟩, steps, ran⟩ := bind_ok_iff.mp ran
  obtain ⟨_, ran⟩ := refuse_bind_ok.mp ran
  exact ⟨stepped, receipt, steps, ran⟩

end Kernel

end Shiba.Execution
