import Shiba.Distinct.Steps

set_option autoImplicit false

namespace Shiba.Distinct

open Budget Weighted Shiba.Stream Shiba.Execution Shiba.Execution.StepContext Shiba.Linear Shiba.Linear.Transform
open Shiba.Sink (InputPosition)

variable {Row Key Out Bytes : Type} [LinearOrder Key] [LinearOrder Bytes] [DecidableEq Row] [DecidableEq Out]

-- Where a page that leaves no effects goes on: in its chunk, or past it.
def finishedCursor (tables : DistinctTables Row Key Out Bytes) (row : StreamConsumer) (chunk : EffectChunk Row)
    (nextRow : Nat) : Option DistinctContinuation :=
  if nextRow < chunk.rowCount then some ⟨⟨tables.input.stream.streamId, row.nextChunkSeq, nextRow⟩, .apply⟩ else none

def finishedInput (key : ConsumerKey) (tables : DistinctTables Row Key Out Bytes) (row : StreamConsumer)
    (chunk : EffectChunk Row) (nextRow : Nat) : StreamHistory Row :=
  if nextRow < chunk.rowCount then tables.input
  else movedInput tables.input key row (row.nextChunkSeq + 1) row.consumedFrontierLsn
    ⟨chunk.rowCount, chunk.payloadBytes, 0, 0⟩

-- A queue is drained before its input goes on.
def onwardCursor (tables : DistinctTables Row Key Out Bytes) (row : StreamConsumer) (chunk : EffectChunk Row) (nextRow : Nat)
    (queue : List (QueuedEffect Out Bytes)) : Option DistinctContinuation :=
  if 0 < queue.length then some ⟨⟨tables.input.stream.streamId, row.nextChunkSeq, nextRow⟩, .drain⟩
  else finishedCursor tables row chunk nextRow

def onwardInput (key : ConsumerKey) (tables : DistinctTables Row Key Out Bytes) (row : StreamConsumer)
    (chunk : EffectChunk Row) (nextRow : Nat) (queue : List (QueuedEffect Out Bytes)) : StreamHistory Row :=
  if 0 < queue.length then tables.input else finishedInput key tables row chunk nextRow

-- The page a step admits of a chunk.
def pageOf (spec : DistinctSpec Row Key Out Bytes) (budget : WorkBudget) (chunk : EffectChunk Row) (ordinal : Nat) :
    List (EffectRow Row) := incomingRows spec budget (chunk.payload.drop ordinal)

def appliedState (spec : DistinctSpec Row Key Out Bytes) (tables : DistinctTables Row Key Out Bytes) (budget : WorkBudget)
    (chunk : EffectChunk Row) (ordinal : Nat) : DistinctState Key Out Bytes :=
  reconciledState spec chunk.chunkLsn (admittedState spec (pageOf spec budget chunk ordinal) tables.state)

omit [DecidableEq Row] in
-- What was read up to a position comes first in the stream.
theorem read_rows_first (history : StreamHistory Row) (next ordinal : Nat) :
    ∃ rest, outputRows history = readRows history next ordinal ++ rest := by
  have whole : outputRows history = (history.produced.take (next - 1)).flatMap EffectChunk.payload ++
      ((history.produced[next - 1]?.map EffectChunk.payload).getD [] ++
        (history.produced.drop (next - 1 + 1)).flatMap EffectChunk.payload) := by
    unfold outputRows
    conv_lhs => rw [← List.take_append_drop (next - 1) history.produced, List.drop_eq_getElem?_toList_append]
    rw [List.flatMap_append, List.flatMap_append]
    cases history.produced[next - 1]? with
    | none => rfl
    | some chunk => simp
  refine ⟨((history.produced[next - 1]?.map EffectChunk.payload).getD []).drop ordinal ++
    (history.produced.drop (next - 1 + 1)).flatMap EffectChunk.payload, ?_⟩
  rw [whole, readRows, List.append_assoc]
  congr 1
  rw [← List.append_assoc, List.take_append_drop]

theorem never_first (first rest : List (EffectRow Row)) (never : NeverNegative (first ++ rest)) : NeverNegative first := by
  intro length row
  have here := never (min length first.length) row
  rw [List.take_append_of_le_length (Nat.min_le_right _ _), ← List.take_take, List.take_length] at here
  exact here

section Step

variable (spec : DistinctSpec Row Key Out Bytes) (key : ConsumerKey) (tables : DistinctTables Row Key Out Bytes)
  (budget : WorkBudget) (row : StreamConsumer) (ordinal : Nat) (stands : Stands spec key tables row ordinal)
  (chunk : EffectChunk Row) (stored : chunk ∈ tables.input.stream.chunks) (atCursor : chunk.chunkSeq = row.nextChunkSeq)

include stands stored atCursor

theorem finish_ok (kind : chunk.chunkKind = .data) (state : DistinctState Key Out Bytes)
    (effects : List (QueuedEffect Out Bytes)) (nextRow : Nat) (within : nextRow ≤ chunk.rowCount) : ∃ context,
      finishInputPosition (paged key tables budget row state effects chunk.chunkLsn) chunk nextRow =
        .ok (context, finishedCursor tables row chunk nextRow) ∧
      Turned key tables budget row state effects chunk.chunkLsn (finishedInput key tables row chunk nextRow) context := by
  obtain ⟨good, found, first, flat, standing⟩ := stands
  have turned := paged_turned key tables budget row state effects chunk.chunkLsn
  have frame := paged_frame key tables budget row state effects chunk.chunkLsn
  unfold finishInputPosition
  rcases Nat.lt_or_eq_of_le within with more | rfl
  · have input : InputPosition.new tables.input.stream.streamId chunk.chunkSeq nextRow =
        .ok ⟨tables.input.stream.streamId, row.nextChunkSeq, nextRow⟩ := by
      rw [atCursor, position_ok _ good.streamId first]
    have sameStream : (paged key tables budget row state effects chunk.chunkLsn).input.streamId =
        tables.input.stream.streamId := by
      rw [frame.2]
      rfl
    refine ⟨paged key tables budget row state effects chunk.chunkLsn, ?_, ?_⟩
    · rw [if_pos more, sameStream, input, finishedCursor, if_pos more]
      rfl
    · rw [finishedInput, if_pos more]
      exact turned
  · have carried : carriedFrontier row chunk = row.consumedFrontierLsn := by simp only [carriedFrontier, kind]
    have causal := operator_move_causal good.input good.operator stored atCursor ⟨chunk.rowCount, chunk.payloadBytes, 0, 0⟩
    rw [carried] at causal
    have sameInput : (paged key tables budget row state effects chunk.chunkLsn).tables.input = tables.input := by
      rw [turned.sameTables]
    have level : (paged key tables budget row state effects chunk.chunkLsn).input.consumedFrontierLsn =
        row.consumedFrontierLsn := by
      rw [frame.2]
      rfl
    have advanced := advance_input_ok (paged key tables budget row state effects chunk.chunkLsn) row
      (by rw [sameInput, frame.1, found]) (by rw [frame.2]; rfl) level (row.nextChunkSeq + 1) row.consumedFrontierLsn
      ⟨chunk.rowCount, chunk.payloadBytes, 0, 0⟩
      (by
        rw [sameInput]
        exact chunk_move_fits good.input first chunk stored atCursor _ (Nat.le_refl _))
      (by rw [sameInput]; exact causal)
    rw [sameInput, frame.1] at advanced
    refine ⟨(paged key tables budget row state effects chunk.chunkLsn).inputMoved (movedInput tables.input key row
      (row.nextChunkSeq + 1) row.consumedFrontierLsn ⟨chunk.rowCount, chunk.payloadBytes, 0, 0⟩).stream, ?_, ?_⟩
    · rw [if_neg (Nat.lt_irrefl _), if_pos rfl, atCursor, level, advanced, finishedCursor, if_neg (Nat.lt_irrefl _)]
      rfl
    · refine ⟨?_, turned.sameBudget, turned.sameOutput, turned.bound, turned.frontier, turned.expected⟩
      rw [finishedInput, if_neg (Nat.lt_irrefl _)]
      simp only [inputMoved, turned.sameTables]
      rfl

def storedAt (tables : DistinctTables Row Key Out Bytes) (row : StreamConsumer) (ordinal : Nat) (phase : DistinctPhase) :
    StoredContinuation where
  value := ⟨⟨tables.input.stream.streamId, row.nextChunkSeq, ordinal⟩, phase⟩
  persisted := tables.continuation.isSome

omit [LinearOrder Key] [LinearOrder Bytes] [DecidableEq Row] [DecidableEq Out] stands stored atCursor in
theorem stored_saved (phase : DistinctPhase) (same : ∀ saved, tables.continuation = some saved →
    saved = ⟨⟨tables.input.stream.streamId, row.nextChunkSeq, ordinal⟩, phase⟩) :
    (if (storedAt tables row ordinal phase).persisted then some (storedAt tables row ordinal phase).value else none) =
      tables.continuation := by
  unfold storedAt
  cases saved : tables.continuation with
  | none => rfl
  | some continuation => rw [same continuation saved, Option.isSome_some, if_pos rfl]

-- A ready step goes to the chunk at its cursor, in the phase of its continuation
-- or of its chunk.
theorem step_at (phase : DistinctPhase)
    (fresh : tables.continuation = none → ordinal = 0 ∧
      phase = match chunk.chunkKind with
        | .data => .apply
        | .frontier => .frontier)
    (saved : ∀ continuation, tables.continuation = some continuation →
      continuation = ⟨⟨tables.input.stream.streamId, row.nextChunkSeq, ordinal⟩, phase⟩ ∧ chunk.chunkKind = .data ∧
        phase ≠ .frontier) :
    step spec (startContext tables key budget row) = match (storedAt tables row ordinal phase).value.phase with
      | .frontier => stepFrontier (boundStart tables key budget row) (storedAt tables row ordinal phase) chunk
      | .drain => stepDrain spec (boundStart tables key budget row) (storedAt tables row ordinal phase) chunk
      | .apply => stepApply spec (boundStart tables key budget row) (storedAt tables row ordinal phase) chunk := by
  obtain ⟨good, found, first, flat, standing⟩ := stands
  have bound := bind_start_ok key budget row good.checkpoint
  have counted := good.stored chunk (good.input.produced.stored.subset stored)
  have reads := chunk_at_stored good.input stored counted (atCursor ▸ first)
  have sameInput : (boundStart tables key budget row).tables.input = tables.input := rfl
  have sameNext : (boundStart tables key budget row).input.nextChunkSeq = chunk.chunkSeq := atCursor.symm
  have untouched : requireEmptyTouched (boundStart tables key budget row).tables.state = .ok () := by
    have none : (boundStart tables key budget row).tables.state.touched = [] := standing.admitted.touched
    rw [requireEmptyTouched, none]
    rfl
  have position := position_ok ordinal good.streamId first
  cases continuation : tables.continuation with
  | none =>
      obtain ⟨start, isPhase⟩ := fresh continuation
      subst start
      have loaded : loadContinuation (startContext tables key budget row) =
          .ok ⟨⟨⟨tables.input.stream.streamId, row.nextChunkSeq, 0⟩, .apply⟩, false⟩ := by
        unfold loadContinuation
        have isNone : (startContext tables key budget row).tables.continuation = none := continuation
        rw [isNone]
        exact bind_ok_iff.mpr ⟨_, position, rfl⟩
      rw [continuation] at bound
      have same : storedAt tables row 0 phase = ⟨⟨⟨tables.input.stream.streamId, row.nextChunkSeq, 0⟩, phase⟩, false⟩ := by
        rw [storedAt, continuation]
        rfl
      unfold step
      rw [loaded, same]
      have bindsFalse : bindContinuationAuthority (startContext tables key budget row) false =
          .ok (boundStart tables key budget row) := bound
      cases kind : chunk.chunkKind with
      | data | frontier =>
          rw [kind] at isPhase
          simp only [ok_bind, bindsFalse, sameInput, sameNext, reads, untouched, kind, Bool.false_and, not_refused,
            Bool.false_eq_true, if_false, phaseOf, isPhase]
  | some here =>
      obtain ⟨rfl, kind, ordinary⟩ := saved here continuation
      have loaded : loadContinuation (startContext tables key budget row) =
          .ok ⟨⟨⟨tables.input.stream.streamId, row.nextChunkSeq, ordinal⟩, phase⟩, true⟩ := by
        have isSome : (startContext tables key budget row).tables.continuation =
            some ⟨⟨tables.input.stream.streamId, row.nextChunkSeq, ordinal⟩, phase⟩ := continuation
        have sameStream : (startContext tables key budget row).input.streamId = tables.input.stream.streamId := rfl
        have sameSeq : (startContext tables key budget row).input.nextChunkSeq = row.nextChunkSeq := rfl
        unfold loadContinuation
        rw [isSome]
        simp only [position, ok_bind, sameStream, sameSeq, ne_eq, not_true_eq_false, decide_false, Bool.or_self, not_refused]
        rfl
      rw [continuation] at bound
      have same : storedAt tables row ordinal phase =
          ⟨⟨⟨tables.input.stream.streamId, row.nextChunkSeq, ordinal⟩, phase⟩, true⟩ := by
        rw [storedAt, continuation]
        rfl
      have bindsTrue : bindContinuationAuthority (startContext tables key budget row) true =
          .ok (boundStart tables key budget row) := bound
      unfold step
      rw [loaded, same]
      cases phase with
      | frontier => exact absurd rfl ordinary
      | drain | apply =>
          simp only [ok_bind, bindsTrue, sameInput, sameNext, reads, untouched, kind, ne_eq, not_true_eq_false,
            reduceCtorEq, decide_false, Bool.or_self, Bool.and_false, not_refused, phaseOf, if_true]

-- Where a step goes on, an input position or the queue.
theorem onward_ok (kind : chunk.chunkKind = .data) (state : DistinctState Key Out Bytes)
    (effects : List (QueuedEffect Out Bytes)) (nextRow : Nat) (within : nextRow ≤ chunk.rowCount) : ∃ context,
      (if 0 < state.queue.length then
          .ok (paged key tables budget row state effects chunk.chunkLsn,
            some ⟨⟨tables.input.stream.streamId, row.nextChunkSeq, nextRow⟩, .drain⟩)
        else finishInputPosition (paged key tables budget row state effects chunk.chunkLsn) chunk nextRow) =
        .ok (context, onwardCursor tables row chunk nextRow state.queue) ∧
      Turned key tables budget row state effects chunk.chunkLsn (onwardInput key tables row chunk nextRow state.queue)
        context := by
  unfold onwardCursor onwardInput
  by_cases queued : 0 < state.queue.length
  · rw [if_pos queued, if_pos queued, if_pos queued]
    exact ⟨_, rfl, paged_turned key tables budget row state effects chunk.chunkLsn⟩
  · rw [if_neg queued, if_neg queued, if_neg queued]
    exact finish_ok spec key tables budget row ordinal stands chunk stored atCursor kind state effects nextRow within

omit [LinearOrder Key] [LinearOrder Bytes] [DecidableEq Row] [DecidableEq Out] stands stored atCursor in
theorem onward_cursor (nextRow : Nat) (queue : List (QueuedEffect Out Bytes)) (after : DistinctContinuation)
    (isNext : onwardCursor tables row chunk nextRow queue = some after) :
    after.input = ⟨tables.input.stream.streamId, row.nextChunkSeq, nextRow⟩ ∧ after.phase ≠ .frontier ∧
      (after.phase = .drain ↔ 0 < queue.length) := by
  unfold onwardCursor finishedCursor at isNext
  by_cases queued : 0 < queue.length
  · rw [if_pos queued] at isNext
    obtain rfl := Option.some.inj isNext
    exact ⟨rfl, drain_ordinary, by simp [queued]⟩
  · rw [if_neg queued] at isNext
    split at isNext
    · obtain rfl := Option.some.inj isNext
      exact ⟨rfl, apply_ordinary, by simp [queued]⟩
    · cases isNext

-- A stepped kernel commits its tables.
theorem kernel_commits (flowing : tables.output.stream.backpressured = false)
    (stepped : DistinctContext Row Key Out Bytes) (phase : KernelPhase) (usage : WorkUsage) (hasContinuation : Bool)
    (steps : step spec (startContext tables key budget row) =
      .ok (stepped, stepped.stepReceipt phase usage hasContinuation))
    (committable : stepped.Committable phase usage hasContinuation) (supported : phase ≠ .process) :
    stepDistinct spec tables key budget = .ok (stepped.committedTables hasContinuation) := by
  have starts := begin_starts tables key budget row stands.found flowing
    (.inr (stored_ahead stands.good.input stored atCursor))
  have notSource : (startContext tables key budget row).input.producer.isSource = false := stands.good.operator
  have listed : phase ∈ [KernelPhase.admitted, .drain, .frontier] := by
    cases phase with
    | process => exact absurd rfl supported
    | admitted => exact List.mem_cons_self
    | drain => simp
    | frontier => simp
  exact run_kernel_ok [.admitted, .drain, .frontier] false (step spec) tables key budget _ starts notSource stepped phase
    usage hasContinuation listed steps committable

omit stored atCursor in
theorem saved_apply (drained : tables.state.queue = []) (saved : DistinctContinuation)
    (isSaved : tables.continuation = some saved) :
    saved = ⟨⟨tables.input.stream.streamId, row.nextChunkSeq, ordinal⟩, .apply⟩ := by
  have continuation := stands.standing.continuation
  rw [drained, isSaved, standingCursor] at continuation
  split at continuation
  · rename_i wrong
    cases wrong
  · split at continuation
    · cases continuation
    · exact Option.some.inj continuation

theorem step_applies (kind : chunk.chunkKind = .data) (drained : tables.state.queue = []) :
    step spec (startContext tables key budget row) =
      stepApply spec (boundStart tables key budget row) (storedAt tables row ordinal .apply) chunk := by
  have continuation := stands.standing.continuation
  rw [step_at spec key tables budget row ordinal stands chunk stored atCursor .apply]
  · rfl
  · intro none
    refine ⟨?_, by rw [kind]⟩
    by_contra started
    rw [drained, none, standingCursor] at continuation
    simp [started] at continuation
  · exact fun saved isSaved => ⟨saved_apply spec key tables row ordinal stands drained saved isSaved, kind, apply_ordinary⟩

section Page

variable (inside : ordinal < chunk.rowCount)

include inside

omit atCursor in
theorem page_taken : ∃ count, pageOf spec budget chunk ordinal = (chunk.payload.drop ordinal).take count ∧
    0 < (pageOf spec budget chunk ordinal).length ∧
    ordinal + (pageOf spec budget chunk ordinal).length ≤ chunk.rowCount ∧
    inputFits spec.scanPlaceholder budget (pageOf spec budget chunk ordinal) := by
  have rows := (stands.good.stored chunk (stands.good.input.produced.stored.subset stored)).rows
  obtain ⟨count, isPage, some, fits⟩ := bounded_prefix spec.scanPlaceholder budget (chunk.payload.drop ordinal)
  have present : chunk.payload.drop ordinal ≠ [] := by
    rw [ne_eq, List.drop_eq_nil_iff]
    omega
  have positive : 0 < ((chunk.payload.drop ordinal).take count).length := by
    rw [List.length_take]
    exact Nat.lt_min.mpr ⟨some present, List.length_pos_iff.mpr present⟩
  have same : pageOf spec budget chunk ordinal = (chunk.payload.drop ordinal).take count := isPage
  refine ⟨count, same, same ▸ positive, ?_, ?_⟩
  · rw [same, List.length_take, List.length_drop]
    omega
  · rw [same]
    exact fits count (Nat.le_refl _) positive

-- The page follows what was read.
theorem page_rows : readRows tables.input row.nextChunkSeq (ordinal + (pageOf spec budget chunk ordinal).length) =
    readRows tables.input row.nextChunkSeq ordinal ++ pageOf spec budget chunk ordinal := by
  have produced := stands.good.input.produced.stored.subset stored
  obtain ⟨count, isPage, _⟩ := page_taken spec key tables budget row ordinal stands chunk stored inside
  have rows := read_rows_more stands.good.input produced ordinal (pageOf spec budget chunk ordinal).length
  have taken : (chunk.payload.drop ordinal).take (pageOf spec budget chunk ordinal).length =
      pageOf spec budget chunk ordinal := by
    rw [isPage, List.length_take, List.take_eq_take_iff]
    omega
  rw [taken, atCursor] at rows
  exact rows

theorem page_never : NeverNegative (readRows tables.input row.nextChunkSeq ordinal ++ pageOf spec budget chunk ordinal) := by
  rw [← page_rows spec key tables budget row ordinal stands chunk stored atCursor inside]
  obtain ⟨rest, whole⟩ := read_rows_first tables.input row.nextChunkSeq (ordinal + (pageOf spec budget chunk ordinal).length)
  have never := stands.good.never
  rw [whole] at never
  exact never_first _ rest never

variable (kind : chunk.chunkKind = .data) (drained : tables.state.queue = [])
  (fits : Fits spec (readRows tables.input row.nextChunkSeq ordinal) (pageOf spec budget chunk ordinal))

include kind drained fits

omit kind in
-- The page becomes the state relations, and the queue what it shows.
theorem run_prefix_ok : ∃ touched stateRows, touched ≤ (pageOf spec budget chunk ordinal).length ∧
    runPrefix spec (boundStart tables key budget row) chunk ordinal =
      .ok (paged key tables budget row (appliedState spec tables budget chunk ordinal) [] chunk.chunkLsn,
        { usage := ⟨(pageOf spec budget chunk ordinal).length,
            spec.scanPlaceholder.sourceBytes (pageOf spec budget chunk ordinal), 0, 0⟩
          nextRow := ordinal + (pageOf spec budget chunk ordinal).length
          touchedKeys := touched
          queuedEffects := (appliedState spec tables budget chunk ordinal).queue.length
          stateRows }) := by
  obtain ⟨count, _, some, _, within⟩ := page_taken spec key tables budget row ordinal stands chunk stored inside
  have never := page_never spec key tables budget row ordinal stands chunk stored atCursor inside
  have admitted := stands.standing.admitted
  have pending := pending_state spec _ (pageOf spec budget chunk ordinal) never tables.state admitted
  obtain ⟨touched, physical, fewTouched, fewPhysical, accepts⟩ := admit_prefix spec _ _ never tables.state admitted
  have accepted := (accepts _).mpr ⟨fits, rfl⟩
  obtain ⟨few, sameQueue⟩ := admitted_touched spec _ (pageOf spec budget chunk ordinal) tables.state admitted
  obtain ⟨stateRows, reconciled, short⟩ := reconcile_ok spec _ _ chunk.chunkLsn never _ pending fits budget within.counted few
  have isPage : incomingRows spec budget (chunk.payload.drop ordinal) = pageOf spec budget chunk ordinal := rfl
  have isState : (boundStart tables key budget row).tables.state = tables.state := rfl
  have isBudget : (boundStart tables key budget row).budget = budget := rfl
  have nonempty : (pageOf spec budget chunk ordinal).isEmpty = false := by
    simpa [List.length_pos_iff] using some
  refine ⟨touched, admittedRows spec (pageOf spec budget chunk ordinal) tables.state + stateRows, fewTouched, ?_⟩
  unfold runPrefix
  simp only [isBudget, isPage, isState, accepted, ok_bind, nonempty, not_refused,
    Nat.not_lt.mpr fewTouched, Nat.not_lt.mpr fewPhysical, decide_false, Bool.or_self, reconciled, Nat.not_lt.mpr short]
  have queued : (appliedState spec tables budget chunk ordinal).queue =
      pageEffects spec chunk.chunkLsn (admittedState spec (pageOf spec budget chunk ordinal) tables.state) := by
    rw [appliedState, reconciledState, sameQueue, drained, List.nil_append]
  rw [queued]
  rfl

variable (flowing : tables.output.stream.backpressured = false)

include flowing

-- A page whose running multiplicities fit is admitted.
theorem apply_step : stepDistinct spec tables key budget = .ok (turnedTables tables
    (appliedState spec tables budget chunk ordinal) [] chunk.chunkLsn
    (onwardInput key tables row chunk (ordinal + (pageOf spec budget chunk ordinal).length)
      (appliedState spec tables budget chunk ordinal).queue)
    (onwardCursor tables row chunk (ordinal + (pageOf spec budget chunk ordinal).length)
      (appliedState spec tables budget chunk ordinal).queue)) := by
  have produced := stands.good.input.produced.stored.subset stored
  have counted := stands.good.stored chunk produced
  obtain ⟨count, _, some, within, taken⟩ := page_taken spec key tables budget row ordinal stands chunk stored inside
  obtain ⟨touched, stateRows, few, ran⟩ := run_prefix_ok spec key tables budget row ordinal stands chunk stored atCursor
    inside drained fits
  obtain ⟨context, turning, turned⟩ := onward_ok spec key tables budget row ordinal stands chunk stored atCursor kind
    (appliedState spec tables budget chunk ordinal) [] (ordinal + (pageOf spec budget chunk ordinal).length) within
  have onward := onward_cursor tables row chunk (ordinal + (pageOf spec budget chunk ordinal).length)
    (appliedState spec tables budget chunk ordinal).queue
  have same := saved_apply spec key tables row ordinal stands drained
  have reached := step_applies spec key tables budget row ordinal stands chunk stored atCursor kind drained
  have whole : payloadFacts spec.scanPlaceholder (boundStart tables key budget row).input.streamId chunk = .ok () := by
    simp [payloadFacts, counted.rows, counted.bytes, refuse]
  have empty : requireEmptyQueue (boundStart tables key budget row).tables.state = .ok () := by
    have none : (boundStart tables key budget row).tables.state.queue = [] := drained
    rw [requireEmptyQueue, none]
    rfl
  have position := position_ok (ordinal + (pageOf spec budget chunk ordinal).length) stands.good.streamId stands.first
  have valid : (⟨(pageOf spec budget chunk ordinal).length,
      spec.scanPlaceholder.sourceBytes (pageOf spec budget chunk ordinal), 0, 0⟩ : WorkUsage).validate budget = .ok () :=
    usage_valid _ budget ⟨taken.counted, taken.sized⟩ ⟨Nat.zero_le _, .inl (Nat.zero_le _)⟩
  have goes : GoesOn ⟨tables.input.stream.streamId, row.nextChunkSeq, ordinal⟩ true
      (onwardCursor tables row chunk (ordinal + (pageOf spec budget chunk ordinal).length)
        (appliedState spec tables budget chunk ordinal).queue) := by
    intro after isNext
    obtain ⟨sameInput, ordinary, _⟩ := onward after isNext
    rw [sameInput]
    exact ⟨rfl, rfl, by simp only [if_true]; omega, ordinary⟩
  have handoff : 0 < (appliedState spec tables budget chunk ordinal).queue.length ↔ DistinctMachine.drainsNext
      (onwardCursor tables row chunk (ordinal + (pageOf spec budget chunk ordinal).length)
        (appliedState spec tables budget chunk ordinal).queue) = true := by
    rw [DistinctMachine.drainsNext, Option.any_eq_true]
    constructor
    · intro queued
      rw [onwardCursor, if_pos queued]
      exact ⟨_, rfl, decide_eq_true rfl⟩
    · rintro ⟨after, isNext, drains⟩
      exact (onward after isNext).2.2.mp (of_decide_eq_true drains)
  have sameStream : (paged key tables budget row (appliedState spec tables budget chunk ordinal) [] chunk.chunkLsn).input.streamId =
      tables.input.stream.streamId := rfl
  have sameBudget : (paged key tables budget row (appliedState spec tables budget chunk ordinal) [] chunk.chunkLsn).budget =
      budget := rfl
  have applied := machine_applies ⟨tables.input.stream.streamId, row.nextChunkSeq, ordinal⟩ stands.good.streamId stands.first
    ⟨⟨(pageOf spec budget chunk ordinal).length, spec.scanPlaceholder.sourceBytes (pageOf spec budget chunk ordinal), 0, 0⟩,
      stateRows, .none⟩ touched (appliedState spec tables budget chunk ordinal).queue.length _ budget (Nat.ne_of_gt some) rfl
    rfl few handoff goes valid
  obtain ⟨stepped, settles, committable, committed⟩ := turned_commits key tables budget row [] chunk.chunkLsn _ context turned (storedAt tables row ordinal .apply)
    (stored_saved tables row ordinal .apply same) apply_ordinary _ (fun after isNext => (onward after isNext).2.1) .admitted _
    stateRows (by decide) valid rfl
    (fun wrong => absurd rfl wrong)
  have executed : step spec (startContext tables key budget row) = .ok (stepped, stepped.stepReceipt .admitted
      ⟨(pageOf spec budget chunk ordinal).length, spec.scanPlaceholder.sourceBytes (pageOf spec budget chunk ordinal), 0, 0⟩
      (onwardCursor tables row chunk (ordinal + (pageOf spec budget chunk ordinal).length)
        (appliedState spec tables budget chunk ordinal).queue).isSome) := by
    have isOrdinal : (storedAt tables row ordinal .apply).value.input.rowOrdinal = ordinal := rfl
    rw [reached]
    unfold stepApply
    simp only [isOrdinal, whole, empty, ran, ok_bind, ite_self]
    by_cases queued : 0 < (appliedState spec tables budget chunk ordinal).queue.length
    · rw [if_pos queued] at turning ⊢
      obtain ⟨rfl, isCursor⟩ := Prod.mk.inj (Except.ok.inj turning)
      simp only [sameStream, atCursor, position, ok_bind, pure_bind, isCursor, sameBudget]
      exact bind_ok_iff.mpr ⟨_, applied, settles⟩
    · rw [if_neg queued] at turning ⊢
      simp only [turning, ok_bind, turned.sameBudget]
      exact bind_ok_iff.mpr ⟨_, applied, settles⟩
  rw [kernel_commits spec key tables budget row ordinal stands chunk stored atCursor flowing stepped .admitted _ _ executed
    committable (by decide), committed]

omit fits in
-- A page that was admitted had fitting running multiplicities.
theorem apply_fits (after : DistinctTables Row Key Out Bytes) (ok : stepDistinct spec tables key budget = .ok after) :
    Fits spec (readRows tables.input row.nextChunkSeq ordinal) (pageOf spec budget chunk ordinal) := by
  have starts := begin_starts tables key budget row stands.found flowing
    (.inr (stored_ahead stands.good.input stored atCursor))
  obtain ⟨stepped, receipt, executed, _⟩ := run_kernel_steps [.admitted, .drain, .frontier] false (step spec) tables key
    budget _ starts after ok
  rw [step_applies spec key tables budget row ordinal stands chunk stored atCursor kind drained] at executed
  have never := page_never spec key tables budget row ordinal stands chunk stored atCursor inside
  obtain ⟨touched, physical, _, _, accepts⟩ := admit_prefix spec _ _ never tables.state stands.standing.admitted
  have ran : ∃ ran, runPrefix spec (boundStart tables key budget row) chunk ordinal = .ok ran := by
    unfold stepApply at executed
    simp only at executed
    split at executed
    · have executed := past_check (past_check executed)
      obtain ⟨ran, isRun, _⟩ := bind_ok_iff.mp executed
      exact ⟨ran, isRun⟩
    · obtain ⟨_, _, executed⟩ := bind_ok_iff.mp executed
      obtain ⟨ran, isRun, _⟩ := bind_ok_iff.mp executed
      exact ⟨ran, isRun⟩
  obtain ⟨ran, isRun⟩ := ran
  unfold runPrefix at isRun
  obtain ⟨result, isAdmitted, _⟩ := bind_ok_iff.mp isRun
  exact ((accepts result).mp isAdmitted).1

end Page

end Step

end Shiba.Distinct
