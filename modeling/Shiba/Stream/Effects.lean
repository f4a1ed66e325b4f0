import Shiba.Stream.EffectStream

set_option autoImplicit false

namespace Shiba.Stream

variable {Row : Type}

-- Chunk sequences count from one.
theorem range_append_one (length : Nat) : List.range' 1 length ++ [length + 1] = List.range' 1 (length + 1) := by
  simp [List.range'_concat, Nat.add_comm]

theorem range_min (start length : Nat) (present : 0 < length) : (List.range' start length).min? = some start := by
  rw [List.min?_eq_some_iff]
  refine ⟨?_, ?_⟩
  · rw [List.mem_range'_1]
    omega
  · intro value member
    exact (List.mem_range'_1.mp member).1

theorem range_max (start length : Nat) (present : 0 < length) :
    (List.range' start length).max? = some (start + length - 1) := by
  rw [List.max?_eq_some_iff]
  refine ⟨?_, ?_⟩
  · rw [List.mem_range'_1]
    omega
  · intro value member
    have within := (List.mem_range'_1.mp member).2
    omega

variable (stream : EffectStream Row) {published : Option Lsn} {consumer : ConsumerKey}

-- One lemma per stream function: everything a successful call can have done.

theorem attach_cases {stream after : EffectStream Row} {facts : AttachFacts} {activationLsn : Lsn}
    (ok : attachEffectStreamConsumer stream facts consumer activationLsn = .ok after) :
    stream.findConsumer consumer = none ∧ (stream.isSource = false → stream.nextChunkSeq = 1) ∧
      after = { stream with consumers := stream.consumers ++ [freshConsumer stream consumer activationLsn] } := by
  unfold attachEffectStreamConsumer at ok
  split at ok
  · cases ok
  · split at ok
    · cases ok
    · rename_i unproduced
      split at ok
      · cases ok
      · split at ok
        · cases ok
        · rename_i free
          simp only [Bool.or_eq_true, not_or, Option.isSome_iff_ne_none, ne_eq, not_not] at free
          refine ⟨free.2, ?_, (Except.ok.inj ok).symm⟩
          intro operator
          by_contra produced
          exact unproduced (by simp [operator, produced])

theorem append_cases {stream after : EffectStream Row} {expected : Nat} {kind : ChunkKind} {rowCount payloadBytes : Nat}
    {chunkLsn : Lsn} {payload : List (EffectRow Row)} {outcome : AppendOutcome}
    (ok : appendEffectStreamChunk stream published expected kind rowCount payloadBytes chunkLsn payload =
      .ok (after, outcome)) :
    expected = stream.nextChunkSeq ∧
      ((outcome = .discarded ∧ after = stream ∧ stream.isSource = true ∧ stream.consumers = []) ∨
        (stream.consumers ≠ [] ∧ resourcesFit stream.toStreamLimits kind rowCount payloadBytes = true ∧
          causalFault stream published kind chunkLsn = none ∧
          ((outcome = .blocked ∧ after = stream ∧ stream.backpressured = true) ∨
            (outcome = .appended expected ∧ stream.backpressured = false ∧
              after = storeChunk stream kind rowCount payloadBytes chunkLsn payload)))) := by
  unfold appendEffectStreamChunk at ok
  split at ok
  · cases ok
  · split at ok
    · cases ok
    · rename_i sameSeq
      refine ⟨not_not.mp sameSeq, ?_⟩
      split at ok
      · rename_i unwatched
        simp only [Bool.and_eq_true, List.isEmpty_iff] at unwatched
        simp only [Except.ok.injEq, Prod.mk.injEq] at ok
        exact .inl ⟨ok.2.symm, ok.1.symm, unwatched.1, unwatched.2⟩
      · split at ok
        · cases ok
        · rename_i watched
          split at ok
          · cases ok
          · split at ok
            · cases ok
            · rename_i fits
              split at ok
              · cases ok
              · rename_i causal
                refine .inr ⟨by simpa using watched, by simpa using fits, causal, ?_⟩
                split at ok
                · rename_i pressed
                  simp only [Except.ok.injEq, Prod.mk.injEq] at ok
                  exact .inl ⟨ok.2.symm, ok.1.symm, pressed⟩
                · rename_i free
                  simp only [Except.ok.injEq, Prod.mk.injEq] at ok
                  exact .inr ⟨ok.2.symm, by simpa using free, ok.1.symm⟩

theorem advance_cases {stream after : EffectStream Row} {advance : ConsumerAdvance}
    (ok : advanceEffectStreamConsumer stream published consumer advance = .ok after) :
    ∃ row, stream.findConsumer consumer = some row ∧ validAdvance advance = true ∧
      row.nextChunkSeq = advance.expectedNextChunkSeq ∧
      row.consumedFrontierLsn = advance.expectedConsumedFrontierLsn ∧
      advance.newNextChunkSeq ≤ stream.nextChunkSeq ∧
      (chunkRange stream advance.expectedNextChunkSeq advance.newNextChunkSeq).length =
        advance.newNextChunkSeq - advance.expectedNextChunkSeq ∧
      frontierFault stream published row advance = none ∧
      after = { stream with consumers := stream.consumers.map (moveConsumer consumer advance) } := by
  unfold advanceEffectStreamConsumer at ok
  split at ok
  · cases ok
  · rename_i valid
    split at ok
    · cases ok
    · rename_i row found
      simp only at ok
      split at ok
      · cases ok
      · rename_i expected
        obtain ⟨sameNext, sameFrontier⟩ := not_or.mp expected
        split at ok
        · cases ok
        · rename_i produced
          split at ok
          · cases ok
          · rename_i retained
            split at ok
            · cases ok
            · split at ok
              · cases ok
              · rename_i causal
                exact ⟨row, found, by simpa using valid, not_not.mp sameNext, not_not.mp sameFrontier,
                  Nat.le_of_not_lt produced, not_not.mp retained, causal, (Except.ok.inj ok).symm⟩

theorem gc_cases (after : EffectStream Row) (chunkLimit rowLimit byteLimit : Nat)
    (ok : gcEffectStream stream chunkLimit rowLimit byteLimit = .ok after) :
    (slowestNext stream = none ∧ after = stream) ∨
      ∃ slowest, slowestNext stream = some slowest ∧
        after = removeChunks stream (garbageChunks stream slowest chunkLimit rowLimit byteLimit) := by
  unfold gcEffectStream at ok
  split at ok
  · cases ok
  · split at ok
    · rename_i none
      exact .inl ⟨none, (Except.ok.inj ok).symm⟩
    · rename_i slowest some
      exact .inr ⟨slowest, some, (Except.ok.inj ok).symm⟩

theorem garbage_mem (slowest chunkLimit rowLimit byteLimit : Nat) (chunk : EffectChunk Row)
    (member : chunk ∈ garbageChunks stream slowest chunkLimit rowLimit byteLimit) :
    chunk ∈ stream.chunks ∧ chunk.chunkSeq < slowest := by
  unfold garbageChunks Budget.withinBudget at member
  obtain ⟨⟨item, index⟩, kept, rfl⟩ := List.mem_map.mp member
  have inside := List.mem_of_mem_take (List.fst_mem_of_mem_zipIdx (List.mem_filter.mp kept).1)
  obtain ⟨present, low⟩ := List.mem_filter.mp inside
  exact ⟨present, by simpa using low⟩

end Shiba.Stream
