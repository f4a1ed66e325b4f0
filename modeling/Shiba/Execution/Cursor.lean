import Shiba.Execution.Operations
import Shiba.Stream.Cursor

set_option autoImplicit false

namespace Shiba.Execution

open Transition Shiba.Stream StepContext

variable {Row Out Cont State : Type}

-- The context of a ready step once its continuation authority is bound.
def boundStart (tables : StageTables Row Out Cont State) (key : ConsumerKey) (budget : WorkBudget) (row : StreamConsumer) :
    StepContext Row Out Cont State :=
  { startContext tables key budget row with continuationPresence := some tables.continuation.isSome }

section

variable (tables : StageTables Row Out Cont State) (key : ConsumerKey) (budget : WorkBudget) (row : StreamConsumer)

theorem bind_start_ok {tables : StageTables Row Out Cont State}
    (checkpoint : tables.hasContinuation = tables.continuation.isSome) :
    (startContext tables key budget row).bindContinuationAuthority tables.continuation.isSome =
      .ok (boundStart tables key budget row) := by
  simp [bindContinuationAuthority, checkpoint, startContext, refuse, bind, Except.bind, pure, Except.pure, boundStart]

-- A stage with a chunk or a continuation, and room downstream, is ready.
theorem begin_starts (found : tables.input.stream.findConsumer key = some row)
    (flowing : tables.output.stream.backpressured = false)
    (work : tables.hasContinuation = true ∨ row.nextChunkSeq < tables.input.stream.nextChunkSeq) :
    begin tables key budget = .ok (.ready (startContext tables key budget row)) := by
  have pending : (!tables.hasContinuation && !(inputState tables.input row).hasPending) = false := by
    rcases work with saved | ahead
    · simp [saved]
    · simp [InputState.hasPending, inputState, ahead]
  unfold begin
  rw [found]
  simp only [flowing, pending, Bool.false_eq_true, if_false]
  rfl

end

-- A stage with nothing to do, or no room downstream, leaves everything as it was.
theorem run_kernel_waits {phases : List KernelPhase} {fromSource : Bool}
    {kernel : StepContext Row Out Cont State → Except Fault (StepContext Row Out Cont State × StepReceipt)}
    {tables after : StageTables Row Out Cont State} {key : ConsumerKey} {budget : WorkBudget} {row : StreamConsumer}
    (found : tables.input.stream.findConsumer key = some row) (operator : tables.input.stream.isSource = false)
    (waits : tables.output.stream.backpressured = true ∨ ¬ row.nextChunkSeq < tables.input.stream.nextChunkSeq)
    (unsaved : ¬ row.nextChunkSeq < tables.input.stream.nextChunkSeq → tables.hasContinuation = false)
    (ok : runKernel phases fromSource kernel tables key budget = .ok after) : after = tables := by
  unfold runKernel begin at ok
  rw [found] at ok
  by_cases pressed : tables.output.stream.backpressured = true
  · simp only [pressed, if_true, ok_bind] at ok
    exact (Except.ok.inj ok).symm
  · have nothing := waits.resolve_left pressed
    have idle : (inputState tables.input row).hasPending = false := by
      simp [InputState.hasPending, inputState, nothing, operator]
    simp only [pressed, unsaved nothing, idle, Bool.not_false, Bool.and_self, Bool.false_eq_true, if_false, if_true,
      ok_bind] at ok
    exact (Except.ok.inj ok).symm

-- The input once the stage has moved its own cursor.
def movedInput (input : StreamHistory Row) (key : ConsumerKey) (row : StreamConsumer) (next : Nat) (frontier : Lsn)
    (usage : WorkUsage) : StreamHistory Row :=
  { input with
    stream := { input.stream with
      consumers := input.stream.consumers.map (moveConsumer key (moveOf row next frontier usage)) } }

theorem found_consumer (input : StreamHistory Row) (key : ConsumerKey) (row : StreamConsumer)
    (found : input.stream.findConsumer key = some row) : row ∈ input.stream.consumers ∧ row.consumer = key :=
  ⟨List.mem_of_find?_eq_some found, by simpa using List.find?_some found⟩

theorem consumer_found {input : StreamHistory Row} (good : StreamInvariant input) {row : StreamConsumer}
    (member : row ∈ input.stream.consumers) {key : ConsumerKey} (named : row.consumer = key) :
    input.stream.findConsumer key = some row := by
  cases found : input.stream.findConsumer key with
  | none =>
      have absent := List.find?_eq_none.mp found row member
      simp [named] at absent
  | some other =>
      obtain ⟨otherMember, otherNamed⟩ := found_consumer input key other found
      rw [List.inj_on_of_nodup_map good.keys otherMember member (otherNamed.trans named.symm)]

section Moves

variable {input : StreamHistory Row} (good : StreamInvariant input) {key : ConsumerKey} {row : StreamConsumer}
  (found : input.stream.findConsumer key = some row)

include found

theorem moved_consumer (next : Nat) (frontier : Lsn) (usage : WorkUsage) :
    { row with nextChunkSeq := next, consumedFrontierLsn := frontier } ∈
      (movedInput input key row next frontier usage).stream.consumers := by
  obtain ⟨member, named⟩ := found_consumer input key row found
  exact List.mem_map.mpr ⟨row, member, by simp [moveConsumer, named, moveOf]⟩

include good

theorem moved_input_invariant (next : Nat) (frontier : Lsn) (usage : WorkUsage) (fits : MoveFits input row next frontier)
    (causal : frontierFault input.stream input.published row (moveOf row next frontier usage) = none) :
    StreamInvariant (movedInput input key row next frontier usage) :=
  invariant_advance input good (advance_ok found fits causal)

omit found in
theorem stored_ahead {chunk : EffectChunk Row} (stored : chunk ∈ input.stream.chunks)
    (atCursor : chunk.chunkSeq = row.nextChunkSeq) : row.nextChunkSeq < input.stream.nextChunkSeq := by
  have below := produced_below input good.produced chunk (good.produced.stored.subset stored)
  rwa [atCursor] at below

-- A pending position is a stored chunk.
theorem pending_stored (first : 1 ≤ row.nextChunkSeq) (pending : row.nextChunkSeq < input.stream.nextChunkSeq) :
    ∃ chunk ∈ input.stream.chunks, chunk.chunkSeq = row.nextChunkSeq := by
  obtain ⟨member, _⟩ := found_consumer input key row found
  have length := good.produced.next
  have number : row.nextChunkSeq ∈ input.produced.map EffectChunk.chunkSeq := by
    rw [good.produced.numbered, List.mem_range'_1]
    omega
  obtain ⟨chunk, produced, atCursor⟩ := List.mem_map.mp number
  exact ⟨chunk, (good.consumers row member).retained chunk produced (Nat.le_of_eq atCursor.symm), atCursor⟩

omit found in
-- The cursor may step over the chunk it stands on.
theorem chunk_move_fits (first : 1 ≤ row.nextChunkSeq) (chunk : EffectChunk Row) (stored : chunk ∈ input.stream.chunks)
    (atCursor : chunk.chunkSeq = row.nextChunkSeq) (frontier : Lsn) (raised : row.consumedFrontierLsn ≤ frontier) :
    MoveFits input row (row.nextChunkSeq + 1) frontier where
  onward := Nat.le_succ _
  raised := raised
  moves := fun same => Nat.succ_ne_self _ same.1
  short := Nat.le_refl _
  first := first
  produced := stored_ahead good stored atCursor
  retained := by
    have single := single_range good chunk stored
    rw [atCursor] at single
    rw [single]
    exact (Nat.add_sub_cancel_left row.nextChunkSeq 1).symm

end Moves

-- The frontier of a consumer once it has passed a chunk.
def carriedFrontier (row : StreamConsumer) (chunk : EffectChunk Row) : Lsn :=
  match chunk.chunkKind with
  | .data => row.consumedFrontierLsn
  | .frontier => max row.consumedFrontierLsn chunk.chunkLsn

theorem frontier_carried (row : StreamConsumer) (chunk : EffectChunk Row) :
    row.consumedFrontierLsn ≤ carriedFrontier row chunk := by
  unfold carriedFrontier
  cases chunk.chunkKind with
  | data => exact Nat.le_refl _
  | frontier => exact Nat.le_max_left _ _

section Operator

variable {input : StreamHistory Row} (good : StreamInvariant input) (operator : input.stream.isSource = false)
  {row : StreamConsumer}

include operator in
theorem operator_order (ordered : ProducedInOrder input) {a b : EffectChunk Row} (aMember : a ∈ input.produced)
    (bMember : b ∈ input.produced) (before : a.chunkSeq < b.chunkSeq) :
    (a.chunkKind = .frontier → a.chunkLsn < b.chunkLsn) ∧ (b.chunkKind = .frontier → a.chunkLsn ≤ b.chunkLsn) := by
  obtain ⟨resultOid, stageId, producer⟩ := operator_producer input.stream operator
  have order := ordered.ordered a aMember b bMember before
  simpa only [ChunkOrder, producer] using order

include good operator

-- What an operator consumer has consumed lies below every frontier ahead of it.
theorem frontier_ahead (member : row ∈ input.stream.consumers) (flat : row.activationLsn = 0) {chunk : EffectChunk Row}
    (produced : chunk ∈ input.produced) (ahead : row.nextChunkSeq ≤ chunk.chunkSeq) :
    row.consumedFrontierLsn ≤ chunk.chunkLsn := by
  by_cases risen : row.activationLsn < row.consumedFrontierLsn
  · obtain ⟨earlier, earlierProduced, isFrontier, passed, same⟩ := (good.consumers row member).witnessed operator risen
    rw [← same]
    exact Nat.le_of_lt ((operator_order operator good.produced earlierProduced produced
      (Nat.lt_of_lt_of_le passed ahead)).1 isFrontier)
  · have zero : row.consumedFrontierLsn ≤ 0 := flat ▸ Nat.le_of_not_lt risen
    exact Nat.le_trans zero (Nat.zero_le _)

variable {chunk : EffectChunk Row} (stored : chunk ∈ input.stream.chunks) (atCursor : chunk.chunkSeq = row.nextChunkSeq)

include stored atCursor

-- Stepping over a chunk raises the frontier by what the chunk carries.
theorem operator_move_causal (usage : WorkUsage) :
    frontierFault input.stream input.published row (moveOf row (row.nextChunkSeq + 1) (carriedFrontier row chunk) usage) =
      none := by
  obtain ⟨resultOid, stageId, producer⟩ := operator_producer input.stream operator
  have single := single_range good chunk stored
  rw [atCursor] at single
  have derived : carriedFrontier row chunk =
      derivedOperatorFrontier row.consumedFrontierLsn (consumedOperatorFrontier [chunk]) := by
    cases kind : chunk.chunkKind with
    | data | frontier => simp [carriedFrontier, consumedOperatorFrontier, kind, derivedOperatorFrontier]
  simp only [frontierFault, producer, moveOf, single, ← derived, ne_eq, not_true_eq_false, if_false]

theorem data_move_causal (kind : chunk.chunkKind = .data) (usage : WorkUsage) :
    frontierFault input.stream input.published row (moveOf row (row.nextChunkSeq + 1) row.consumedFrontierLsn usage) =
      none := by
  have causal := operator_move_causal good operator stored atCursor usage
  rwa [carriedFrontier, kind] at causal

theorem frontier_move_causal (member : row ∈ input.stream.consumers) (flat : row.activationLsn = 0)
    (kind : chunk.chunkKind = .frontier) (usage : WorkUsage) : row.consumedFrontierLsn ≤ chunk.chunkLsn ∧
      frontierFault input.stream input.published row (moveOf row (row.nextChunkSeq + 1) chunk.chunkLsn usage) = none := by
  have raised := frontier_ahead good operator member flat (good.produced.stored.subset stored) (Nat.le_of_eq atCursor.symm)
  have causal := operator_move_causal good operator stored atCursor usage
  simp only [carriedFrontier, kind, Nat.max_eq_right raised] at causal
  exact ⟨raised, causal⟩

end Operator

-- A stage that was just attached to an operator stream starts at its first chunk.
theorem attached_input {input : StreamHistory Row} {key : ConsumerKey} (operator : input.stream.isSource = false)
    (attached : ∃ before facts activationLsn, Reachable historyStep Fresh before ∧
      historyStep before (.attach facts key activationLsn) = .ok input) :
    StreamInvariant input ∧ input.produced = [] ∧ (⟨key, 1, 0, 0⟩ : StreamConsumer) ∈ input.stream.consumers := by
  obtain ⟨before, facts, activationLsn, reached, ok⟩ := attached
  have invariant : StreamInvariant before := reachable_invariant StreamInvariant stream_invariant_fresh
    (fun history op after good taken => invariant_step good taken) before reached
  have kept := invariant_step invariant ok
  obtain ⟨stream, made, rfl⟩ := except_map_ok ok
  obtain ⟨_, unproduced, rfl⟩ := attach_cases made
  refine ⟨kept, ?_, ?_⟩
  · have next := invariant.produced.next
    rw [unproduced operator] at next
    exact List.length_eq_zero_iff.mp (Nat.succ.inj next).symm
  · obtain ⟨producerOid, producerStage, producer⟩ := operator_producer before.stream operator
    have freshRow : freshConsumer before.stream key activationLsn = ⟨key, 1, 0, 0⟩ := by
      simp only [freshConsumer, producer]
    rw [← freshRow]
    exact List.mem_append_right _ (List.mem_singleton.mpr rfl)

end Shiba.Execution
