import Shiba.Distinct.Effects

set_option autoImplicit false

namespace Shiba.Distinct

open Weighted Transition Shiba.Stream Shiba.Execution Shiba.Linear Shiba.Linear.Transform
open Shiba.Sink (InputPosition)

variable {Row Key Out Bytes : Type}

section Stage

variable [LinearOrder Key] [LinearOrder Bytes] [DecidableEq Row]

-- Around a Distinct happens what happens around a Transform.
def distinctStep (spec : DistinctSpec Row Key Out Bytes) (key : ConsumerKey) (tables : DistinctTables Row Key Out Bytes) :
    TransformCall Row Out key → Except Fault (DistinctTables Row Key Out Bytes)
  | .source op _ => (historyStep tables.input op).map fun input => { tables with input }
  | .reader op _ => (historyStep tables.output op).map fun output => { tables with output }
  | .step budget => stepDistinct spec tables key budget

-- The producer takes away no row that is not there.
def Feeds (spec : DistinctSpec Row Key Out Bytes) (key : ConsumerKey) (tables : DistinctTables Row Key Out Bytes) :
    TransformCall Row Out key → Prop
  | .source op _ => ProducerOp spec.scanPlaceholder tables.input op ∧
      ∀ input, historyStep tables.input op = .ok input → NeverNegative (outputRows input)
  | _ => True

end Stage

-- A reachable operator stream that the stage was just attached to, a fresh
-- output stream with its readers, and empty state relations.
structure DistinctRegistered (key : ConsumerKey) (tables : DistinctTables Row Key Out Bytes) : Prop where
  input : ∃ before facts activationLsn, Reachable historyStep Fresh before ∧
    historyStep before (.attach facts key activationLsn) = .ok tables.input
  operator : tables.input.stream.isSource = false
  streamId : 0 < tables.input.stream.streamId
  output : ∃ limits streamId resultOid stageId consumers, 0 < limits.targetChunkRows ∧ consumers ≠ [] ∧
    tables.output = ⟨{ freshStream limits streamId (.operator resultOid stageId) with consumers }, none, []⟩
  continuation : tables.continuation = none
  checkpoint : tables.hasContinuation = false
  state : tables.state = {}

-- The rows written so far, and those that wait in the queue.
def promised (tables : DistinctTables Row Key Out Bytes) : List (Out × Int) :=
  itemsOf (outputRows tables.output) ++ tables.state.queue.map signedRow

-- A queue is drained before the next page of its chunk.
def standingCursor (streamId chunkSeq ordinal : Nat) (queued : Bool) : Option DistinctContinuation :=
  if queued then some ⟨⟨streamId, chunkSeq, ordinal⟩, .drain⟩
  else if ordinal = 0 then none
  else some ⟨⟨streamId, chunkSeq, ordinal⟩, .apply⟩

-- The chunk at the cursor, once the stage has started it.
structure Started (spec : DistinctSpec Row Key Out Bytes) (tables : DistinctTables Row Key Out Bytes) (next ordinal : Nat)
    (chunk : EffectChunk Row) : Prop where
  atCursor : chunk.chunkSeq = next
  kind : chunk.chunkKind = .data
  within : ordinal ≤ chunk.rowCount
  inside : tables.state.queue = [] → ordinal < chunk.rowCount
  drainable : ∀ effect ∈ tables.state.queue, Drainable spec chunk.chunkLsn effect

section Invariant

variable [LinearOrder Key] [LinearOrder Bytes] [DecidableEq Row] [DecidableEq Out]

-- The stage has admitted its input up to a row of the chunk at its cursor, and
-- what it has written and queued turns nothing into what its groups show.
structure Standing (spec : DistinctSpec Row Key Out Bytes) (tables : DistinctTables Row Key Out Bytes)
    (row : StreamConsumer) (ordinal : Nat) : Prop where
  continuation : tables.continuation =
    standingCursor tables.input.stream.streamId row.nextChunkSeq ordinal (!tables.state.queue.isEmpty)
  started : ordinal ≠ 0 → ∃ chunk ∈ tables.input.produced, Started spec tables row.nextChunkSeq ordinal chunk
  fresh : ordinal = 0 → tables.state.queue = []
  admitted : Admitted spec (readRows tables.input row.nextChunkSeq ordinal) tables.state
  shown : ∀ output, weight (promised tables) output = shownRows tables.state.groups output
  running : ∀ length output, weight ((promised tables).take length) output = 0 ∨
    weight ((promised tables).take length) output = 1
  follows : Follows tables.input tables.output.stream row.nextChunkSeq

structure DistinctInvariant (spec : DistinctSpec Row Key Out Bytes) (key : ConsumerKey)
    (tables : DistinctTables Row Key Out Bytes) : Prop where
  input : StreamInvariant tables.input
  operator : tables.input.stream.isSource = false
  streamId : 0 < tables.input.stream.streamId
  stored : ∀ chunk ∈ tables.input.produced, StoredChunk spec.scanPlaceholder chunk
  causal : Causal tables.input
  never : NeverNegative (outputRows tables.input)
  output : OutputShape tables.output.stream
  checkpoint : tables.hasContinuation = tables.continuation.isSome

-- The stage stands at a row of its input.
structure Stands (spec : DistinctSpec Row Key Out Bytes) (key : ConsumerKey) (tables : DistinctTables Row Key Out Bytes)
    (row : StreamConsumer) (ordinal : Nat) : Prop where
  good : DistinctInvariant spec key tables
  found : tables.input.stream.findConsumer key = some row
  first : 1 ≤ row.nextChunkSeq
  flat : row.activationLsn = 0
  standing : Standing spec tables row ordinal

section Around

variable (spec : DistinctSpec Row Key Out Bytes) (key : ConsumerKey) (tables : DistinctTables Row Key Out Bytes)
  (row : StreamConsumer) (ordinal : Nat) (stands : Stands spec key tables row ordinal)

include stands

theorem source_keeps (op : StreamOp Row) (other : OtherConsumer key op) (input : StreamHistory Row)
    (feeds : Feeds spec key tables (.source op other : TransformCall Row Out key))
    (ok : historyStep tables.input op = .ok input) : Stands spec key { tables with input := input } row ordinal := by
  obtain ⟨good, found, first, flat, standing⟩ := stands
  obtain ⟨produces, never⟩ := feeds
  obtain ⟨member, named⟩ := found_consumer tables.input key row found
  have kept := stream_step_keeps ok
  have invariant := invariant_step good.input ok
  obtain ⟨more, grown, fresh, _⟩ := stored_step produces ok
  have within := (good.input.consumers row member).within
  have length := good.input.produced.next
  have sameRows : readRows input row.nextChunkSeq ordinal = readRows tables.input row.nextChunkSeq ordinal := by
    apply read_rows_grow tables.input more input grown row.nextChunkSeq ordinal (by omega) ?_ first
    intro started
    obtain ⟨chunk, produced, isChunk⟩ := standing.started started
    have below := produced_below tables.input good.input.produced chunk produced
    have atCursor := isChunk.atCursor
    omega
  have operator : input.stream.isSource = false := by
    have operator := good.operator
    unfold EffectStream.isSource at operator ⊢
    rwa [kept.producer]
  have stored : ∀ chunk ∈ input.produced, StoredChunk spec.scanPlaceholder chunk := by
    intro chunk chunkMember
    rw [grown] at chunkMember
    rcases List.mem_append.mp chunkMember with old | new
    · exact good.stored chunk old
    · exact (fresh chunk new).1
  have causal := causal_step spec.scanPlaceholder tables.input input op good.input produces ok good.causal
  refine ⟨⟨invariant, operator, kept.streamId ▸ good.streamId, stored, causal, never input ok, good.output, good.checkpoint⟩,
    consumer_found invariant (consumer_kept other ok member named) named, first,
    flat, ?_⟩
  refine ⟨?_, ?_, standing.fresh, sameRows ▸ standing.admitted, standing.shown, standing.running,
    follows_grown standing.follows input kept.produced⟩
  · rw [kept.streamId]
    exact standing.continuation
  · intro started
    obtain ⟨chunk, produced, isChunk⟩ := standing.started started
    exact ⟨chunk, kept.produced chunk produced, isChunk.atCursor, isChunk.kind, isChunk.within, isChunk.inside,
      isChunk.drainable⟩

theorem reader_keeps (op : StreamOp Out) (reads : ReaderOp op) (output : StreamHistory Out)
    (ok : historyStep tables.output op = .ok output) : Stands spec key { tables with output := output } row ordinal := by
  obtain ⟨good, found, first, flat, standing⟩ := stands
  have kept := reader_op_keeps reads ok
  have sameRows : outputRows output = outputRows tables.output := by
    unfold outputRows
    rw [reader_produced reads ok]
  have same : promised { tables with output := output } = promised tables := by
    unfold promised
    rw [sameRows]
  refine ⟨⟨good.input, good.operator, good.streamId, good.stored, good.causal, good.never,
    output_shape_kept _ _ kept good.output, good.checkpoint⟩, found, first, flat, ?_⟩
  refine ⟨standing.continuation, ?_, standing.fresh, standing.admitted, ?_, ?_,
    follows_kept standing.follows _ kept.published kept.latest⟩
  · intro started
    obtain ⟨chunk, produced, isChunk⟩ := standing.started started
    exact ⟨chunk, produced, isChunk.atCursor, isChunk.kind, isChunk.within, isChunk.inside, isChunk.drainable⟩
  · rw [same]
    exact standing.shown
  · rw [same]
    exact standing.running

end Around

omit [DecidableEq Row] [DecidableEq Out] in
-- Empty state relations have admitted no row.
theorem nothing_admitted (spec : DistinctSpec Row Key Out Bytes) : Admitted spec [] {} where
  grouped := ⟨List.Pairwise.nil, by simp, List.nodup_nil⟩
  bagged := ⟨List.nodup_nil, by simp, by simp, by simp, by simp, fun value present => absurd present (Int.lt_irrefl 0)⟩
  shown := by simp
  positive := by simp
  covers := fun key present => absurd present (Int.lt_irrefl 0)
  bounded := fun key => Int.natCast_nonneg bigintMax
  matching := by
    intro group member
    cases member
  touched := rfl

theorem registered_stands (spec : DistinctSpec Row Key Out Bytes) (key : ConsumerKey)
    (tables : DistinctTables Row Key Out Bytes) (registered : DistinctRegistered key tables) :
    ∃ row, Stands spec key tables row 0 := by
  obtain ⟨kept, nothing, member⟩ := attached_input registered.operator registered.input
  obtain ⟨limits, streamId, resultOid, stageId, consumers, target, watched, output⟩ := registered.output
  have noRows : promised tables = [] := by
    rw [promised, output, registered.state]
    rfl
  refine ⟨⟨key, 1, 0, 0⟩, ⟨kept, registered.operator, registered.streamId, ?_, ?_, ?_, ?_, ?_⟩,
    consumer_found kept member rfl, Nat.le_refl 1, rfl, ?_, fun started => absurd rfl started, fun _ => ?_,
    ?_, ?_, ?_, ?_, ?_⟩
  · rw [nothing]
    intro chunk inside
    cases inside
  · unfold Causal
    rw [nothing]
    intro a inside
    cases inside
  · unfold outputRows NeverNegative
    rw [nothing]
    intro length row
    rw [List.flatMap_nil, List.take_nil]
    exact Int.le_refl 0
  · rw [output]
    exact ⟨rfl, watched, Nat.le_refl 1, target⟩
  · rw [registered.checkpoint, registered.continuation]
    rfl
  · rw [registered.continuation, registered.state]
    rfl
  · rw [registered.state]
  · rw [registered.state]
    have noneRead : readRows tables.input 1 0 = [] := by
      unfold readRows
      rw [nothing]
      rfl
    rw [noneRead]
    exact nothing_admitted spec
  · rw [noRows, registered.state]
    intro output
    rfl
  · rw [noRows]
    intro length output
    rw [List.take_nil]
    exact Or.inl rfl
  · rw [output]
    intro lsn isPublished
    cases isPublished
  · rw [output]
    intro lsn isLatest
    cases isLatest

end Invariant

end Shiba.Distinct
