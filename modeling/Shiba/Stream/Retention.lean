import Shiba.Stream.Completeness

set_option autoImplicit false

namespace Shiba.Stream

open Budget Transition

variable {Row : Type}

-- The CHECKs of effect_streams on its limits.
structure LimitsChecked (limits : StreamLimits) : Prop where
  targetRows : 0 < limits.targetChunkRows ∧ limits.targetChunkRows ≤ limits.highRows
  targetBytes : 0 < limits.targetChunkBytes ∧ limits.targetChunkBytes ≤ limits.highBytes
  chunks : limits.lowChunks < limits.highChunks
  rows : limits.lowRows < limits.highRows
  bytes : limits.lowBytes < limits.highBytes

def FreshChecked (history : StreamHistory Row) : Prop :=
  Fresh history ∧ LimitsChecked history.stream.toStreamLimits

-- One buffered dimension above its low watermark.
def AboveLow (stream : EffectStream Row) : Prop :=
  stream.lowChunks < stream.bufferedChunks ∨ stream.lowRows < stream.bufferedRows ∨ stream.lowBytes < stream.bufferedBytes

structure Retained (stream : EffectStream Row) : Prop where
  limits : LimitsChecked stream.toStreamLimits
  stored : stream.chunks.map EffectChunk.chunkSeq = List.range' stream.firstRetainedChunkSeq stream.chunks.length
  next : stream.nextChunkSeq = stream.firstRetainedChunkSeq + stream.chunks.length
  chunks : stream.bufferedChunks = stream.chunks.length
  rows : stream.bufferedRows = (stream.chunks.map EffectChunk.rowCount).sum
  bytes : stream.bufferedBytes = (stream.chunks.map EffectChunk.payloadBytes).sum
  cursors : ∀ row ∈ stream.consumers,
    stream.firstRetainedChunkSeq ≤ row.nextChunkSeq ∧ row.nextChunkSeq ≤ stream.nextChunkSeq
  pressed : stream.backpressured = true → AboveLow stream

theorem retained_fresh (history : StreamHistory Row) (fresh : FreshChecked history) : Retained history.stream := by
  obtain ⟨⟨limits, streamId, producer, published, rfl⟩, checked⟩ := fresh
  refine ⟨checked, rfl, rfl, rfl, rfl, rfl, ?_, ?_⟩
  · intro row member
    cases member
  · intro pressed
    cases pressed

section Append

variable (stream : EffectStream Row) (good : Retained stream) (kind : ChunkKind) (rowCount payloadBytes : Nat)
  (chunkLsn : Lsn) (payload : List (EffectRow Row))

include good

theorem retained_append : Retained (storeChunk stream kind rowCount payloadBytes chunkLsn payload) := by
  refine ⟨good.limits, ?_, ?_, ?_, ?_, ?_, ?_, ?_⟩
  · simp only [storeChunk, List.map_append, good.stored, List.map_cons, List.map_nil, List.length_append,
      List.length_singleton, List.range'_concat, good.next, Nat.one_mul]
  · simp only [storeChunk, good.next, List.length_append, List.length_singleton]
    omega
  · simp [storeChunk, good.chunks]
  · simp [storeChunk, good.rows]
  · simp [storeChunk, good.bytes]
  · intro row member
    have bounds := good.cursors row member
    exact ⟨bounds.1, Nat.le_succ_of_le bounds.2⟩
  · intro pressed
    have limits := good.limits
    simp only [storeChunk, Bool.or_eq_true, decide_eq_true_eq] at pressed
    -- A high watermark lies above its low one.
    rcases pressed with (chunks | rows) | bytes
    · exact .inl (Nat.lt_of_lt_of_le limits.chunks chunks)
    · exact .inr (.inl (Nat.lt_of_lt_of_le limits.rows rows))
    · exact .inr (.inr (Nat.lt_of_lt_of_le limits.bytes bytes))

end Append

theorem retained_consumers (stream : EffectStream Row) (good : Retained stream) (consumers : List StreamConsumer)
    (cursors : ∀ row ∈ consumers, stream.firstRetainedChunkSeq ≤ row.nextChunkSeq ∧ row.nextChunkSeq ≤ stream.nextChunkSeq) :
    Retained { stream with consumers := consumers } :=
  ⟨good.limits, good.stored, good.next, good.chunks, good.rows, good.bytes, cursors, good.pressed⟩

theorem retained_attach {stream after : EffectStream Row} (good : Retained stream) {facts : AttachFacts}
    {consumer : ConsumerKey} {activationLsn : Lsn}
    (ok : attachEffectStreamConsumer stream facts consumer activationLsn = .ok after) : Retained after := by
  obtain ⟨_, unproduced, rfl⟩ := attach_cases ok
  apply retained_consumers stream good
  intro row member
  rcases List.mem_append.mp member with old | fresh
  · exact good.cursors row old
  · rw [List.mem_singleton.mp fresh]
    have next := good.next
    cases producer : stream.producer with
    | source slotGeneration sourceOid =>
        simp only [freshConsumer, producer]
        omega
    | operator resultOid stageId =>
        have start := unproduced (by simp [EffectStream.isSource, producer, Producer.isSource])
        simp only [freshConsumer, producer]
        omega

theorem retained_advance {stream after : EffectStream Row} (good : Retained stream) {published : Option Lsn}
    {consumer : ConsumerKey} {advance : ConsumerAdvance}
    (ok : advanceEffectStreamConsumer stream published consumer advance = .ok after) : Retained after := by
  obtain ⟨row, found, valid, sameNext, _, within, _, _, rfl⟩ := advance_cases ok
  have member := List.mem_of_find?_eq_some found
  simp only [validAdvance, Bool.and_eq_true, decide_eq_true_eq] at valid
  obtain ⟨⟨⟨⟨⟨_, onward⟩, _⟩, _⟩, _⟩, _⟩ := valid
  apply retained_consumers stream good
  intro moved movedMember
  obtain ⟨other, otherMember, rfl⟩ := List.mem_map.mp movedMember
  have bounds := good.cursors row member
  by_cases hit : other.consumer = consumer
  · rw [moveConsumer, if_pos hit]
    exact ⟨Nat.le_trans bounds.1 (sameNext ▸ onward), within⟩
  · rw [moveConsumer, if_neg hit]
    exact good.cursors other otherMember

section Collect

variable (stream : EffectStream Row) (good : Retained stream) (slowest chunkLimit : Nat) {rowLimit byteLimit : Nat}

include good

theorem stored_rising : (stream.chunks.map EffectChunk.chunkSeq).Pairwise (· < ·) := by
  rw [good.stored]
  exact List.pairwise_lt_range'

omit good in
theorem garbage_fit_down (chunks : List (EffectChunk Row)) (index : Nat)
    (fits : (decide (((chunks.take (index + 1)).map EffectChunk.rowCount).sum ≤ rowLimit)
      && decide (((chunks.take (index + 1)).map EffectChunk.payloadBytes).sum ≤ byteLimit)) = true) :
    (decide (((chunks.take index).map EffectChunk.rowCount).sum ≤ rowLimit)
      && decide (((chunks.take index).map EffectChunk.payloadBytes).sum ≤ byteLimit)) = true := by
  simp only [Bool.and_eq_true, decide_eq_true_eq] at fits ⊢
  exact ⟨take_sum_le fits.1, take_sum_le fits.2⟩

-- What GC removes is a prefix of the stored chunks.
theorem garbage_prefix : ∃ count ≤ stream.chunks.length,
    garbageChunks stream slowest chunkLimit rowLimit byteLimit = stream.chunks.take count := by
  obtain ⟨below, isBelow⟩ := filter_below_prefix EffectChunk.chunkSeq stream.chunks (stored_rising stream good) slowest
  obtain ⟨count, taken, _⟩ := within_budget_prefix
    (fun chunks : List (EffectChunk Row) => decide ((chunks.map EffectChunk.rowCount).sum ≤ rowLimit)
      && decide ((chunks.map EffectChunk.payloadBytes).sum ≤ byteLimit))
    ((stream.chunks.filter fun chunk => decide (chunk.chunkSeq < slowest)).take chunkLimit)
    (garbage_fit_down _)
  refine ⟨min (min (min count chunkLimit) below) stream.chunks.length, Nat.min_le_right _ _, ?_⟩
  unfold garbageChunks
  rw [taken, isBelow, List.take_take, List.take_take]
  exact List.take_eq_take_min

theorem retained_remove (count : Nat) (within : count ≤ stream.chunks.length)
    (garbage : garbageChunks stream slowest chunkLimit rowLimit byteLimit = stream.chunks.take count)
    (below : ∀ row ∈ stream.consumers, slowest ≤ row.nextChunkSeq) :
    Retained (removeChunks stream (garbageChunks stream slowest chunkLimit rowLimit byteLimit)) := by
  have distinct : (stream.chunks.map EffectChunk.chunkSeq).Nodup := by
    rw [good.stored]
    exact List.nodup_range'
  have kept := filter_not_taken distinct count
  have taken : (stream.chunks.take count).map EffectChunk.chunkSeq = List.range' stream.firstRetainedChunkSeq count := by
    rw [List.map_take, good.stored, List.take_range'_of_length_ge within]
  have first : (removeChunks stream (stream.chunks.take count)).firstRetainedChunkSeq =
      stream.firstRetainedChunkSeq + count := by
    simp only [removeChunks, taken]
    by_cases some : 0 < count
    · simp only [range_max _ _ some]
      omega
    · have none : count = 0 := Nat.eq_zero_of_not_pos some
      rw [none]
      rfl
  have chunksLeft : (removeChunks stream (stream.chunks.take count)).chunks = stream.chunks.drop count := kept
  have split : ∀ weight : EffectChunk Row → Nat, (stream.chunks.map weight).sum =
      ((stream.chunks.take count).map weight).sum + ((stream.chunks.drop count).map weight).sum := by
    intro weight
    rw [← List.sum_append, ← List.map_append, List.take_append_drop]
  have chunks := good.chunks
  have rows := good.rows
  have bytes := good.bytes
  rw [split EffectChunk.rowCount] at rows
  rw [split EffectChunk.payloadBytes] at bytes
  have next := good.next
  rw [garbage]
  refine ⟨good.limits, ?_, ?_, ?_, ?_, ?_, ?_, ?_⟩
  · rw [first, chunksLeft, List.map_drop, good.stored, List.drop_range', List.length_drop, Nat.mul_one]
  · rw [first, chunksLeft, List.length_drop]
    simp only [removeChunks]
    omega
  · rw [chunksLeft, List.length_drop]
    simp only [removeChunks, List.length_take]
    omega
  · rw [chunksLeft]
    simp only [removeChunks]
    omega
  · rw [chunksLeft]
    simp only [removeChunks]
    omega
  · intro row member
    have bounds := good.cursors row member
    refine ⟨?_, bounds.2⟩
    rw [first]
    -- The last garbage chunk lies below every cursor.
    by_cases some : 0 < count
    · have last : stream.firstRetainedChunkSeq + count - 1 ∈ (stream.chunks.take count).map EffectChunk.chunkSeq := by
        rw [taken, List.mem_range'_1]
        omega
      obtain ⟨chunk, inTake, isLast⟩ := List.mem_map.mp last
      rw [← garbage] at inTake
      have low := (garbage_mem _ _ _ _ _ chunk inTake).2
      have slow := below row member
      omega
    · omega
  · intro pressed
    simp only [removeChunks, Bool.and_eq_true, Bool.not_eq_true', Bool.and_eq_false_iff, decide_eq_false_iff_not,
      Nat.not_le] at pressed
    rcases pressed.2 with (chunks | rows) | bytes
    · exact .inl chunks
    · exact .inr (.inl rows)
    · exact .inr (.inr bytes)

end Collect

theorem retained_collect (stream after : EffectStream Row) (good : Retained stream) (chunkLimit rowLimit byteLimit : Nat)
    (ok : gcEffectStream stream chunkLimit rowLimit byteLimit = .ok after) : Retained after := by
  rcases gc_cases _ _ _ _ _ ok with ⟨_, rfl⟩ | ⟨slowest, isSlowest, rfl⟩
  · exact good
  · obtain ⟨count, within, garbage⟩ := garbage_prefix stream good slowest chunkLimit
    exact retained_remove stream good slowest chunkLimit count within garbage
      fun row member => slowest_below ⟨stream, none, []⟩ slowest isSlowest row member

theorem retained_step {history after : StreamHistory Row} {op : StreamOp Row} (good : Retained history.stream)
    (ok : historyStep history op = .ok after) : Retained after.stream := by
  cases op with
  | append expected kind rowCount payloadBytes chunkLsn payload =>
      rcases append_history_cases rowCount payloadBytes payload ok with
        rfl | ⟨_, _, rfl⟩
      · exact good
      · exact retained_append history.stream good kind rowCount payloadBytes chunkLsn payload
  | attach facts consumer activationLsn =>
      obtain ⟨stream, made, rfl⟩ := except_map_ok ok
      exact retained_attach good made
  | advance consumer move =>
      obtain ⟨stream, made, rfl⟩ := except_map_ok ok
      exact retained_advance good made
  | publish lsn =>
      obtain rfl := Except.ok.inj ok
      exact good
  | collect chunkLimit rowLimit byteLimit =>
      obtain ⟨stream, made, rfl⟩ := except_map_ok ok
      exact retained_collect history.stream stream good chunkLimit rowLimit byteLimit made
  | dropResult resultOid =>
      obtain rfl := Except.ok.inj ok
      exact retained_consumers history.stream good _ fun row member => good.cursors row (List.mem_of_mem_filter member)

-- In every reachable state a stream stores exactly the chunks its two bounds
-- enclose, counts them, and holds what any of its consumers still has to read.
theorem stream_retention (history : StreamHistory Row) (reached : Reachable historyStep FreshChecked history) :
    Retained history.stream ∧
      ∀ row ∈ history.stream.consumers, ∀ sequence, row.nextChunkSeq ≤ sequence →
        sequence < history.stream.nextChunkSeq → ∃ chunk ∈ history.stream.chunks, chunk.chunkSeq = sequence := by
  have good : Retained history.stream := reachable_invariant (fun state => Retained state.stream) retained_fresh
    (fun state op after before taken => retained_step before taken) history reached
  refine ⟨good, fun row member sequence unread produced => ?_⟩
  have bounds := good.cursors row member
  have next := good.next
  have inRange : sequence ∈ history.stream.chunks.map EffectChunk.chunkSeq := by
    rw [good.stored, List.mem_range'_1]
    omega
  obtain ⟨chunk, stored, isSequence⟩ := List.mem_map.mp inRange
  exact ⟨chunk, stored, isSequence⟩

def checkedStart : StreamHistory Nat := ⟨freshStream smallLimits 1 (.source 1 100), none, []⟩

-- Two chunks, a reader past the first, and one collection.
def collectedStream : StreamHistory Nat :=
  attempts historyStep checkedStart
    [.attach ⟨true, false⟩ scanConsumer 0, .append 1 .data 1 9 7 [⟨1, 3⟩], .append 2 .data 2 18 8 [⟨1, 4⟩, ⟨-1, 5⟩],
      .advance scanConsumer ⟨1, 2, 0, 0, 1, 1, 9⟩, .collect 4 64 512]

theorem stream_retention_collected : Retained collectedStream.stream ∧ collectedStream.stream.firstRetainedChunkSeq = 2 :=
  ⟨(stream_retention collectedStream (reachable_attempts _ _ (.start _
    ⟨⟨smallLimits, 1, _, none, rfl⟩, by decide, by decide, by decide, by decide, by decide⟩))).1, by decide⟩

end Shiba.Stream
