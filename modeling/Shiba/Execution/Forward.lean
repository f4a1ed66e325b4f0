import Shiba.Execution.Cursor

set_option autoImplicit false

namespace Shiba.Execution

open Shiba.Stream StepContext

variable {Row Out : Type}

-- The data chunks of a stream rise with their numbers.
def Causal (input : StreamHistory Row) : Prop :=
  ∀ a ∈ input.produced, ∀ b ∈ input.produced, a.chunkKind = .data → b.chunkKind = .data →
    a.chunkSeq ≤ b.chunkSeq → a.chunkLsn ≤ b.chunkLsn

-- What a stage has written comes, LSN by LSN, from its input up to the cursor.
structure Follows (input : StreamHistory Row) (output : EffectStream Out) (next : Nat) : Prop where
  published : ∀ lsn, output.publishedFrontierLsn = some lsn → ∃ chunk ∈ input.produced,
    chunk.chunkKind = .frontier ∧ chunk.chunkSeq < next ∧ chunk.chunkLsn = lsn
  latest : ∀ lsn, output.latestDataLsn = some lsn → ∃ chunk ∈ input.produced,
    chunk.chunkKind = .data ∧ chunk.chunkSeq ≤ next ∧ chunk.chunkLsn = lsn

section Follows

variable {input : StreamHistory Row} {output : EffectStream Out} {next : Nat} (follows : Follows input output next)

include follows

theorem follows_grown (other : StreamHistory Row) (kept : ∀ chunk ∈ input.produced, chunk ∈ other.produced) :
    Follows other output next := by
  constructor
  · intro lsn isPublished
    obtain ⟨chunk, produced, rest⟩ := follows.published lsn isPublished
    exact ⟨chunk, kept chunk produced, rest⟩
  · intro lsn isLatest
    obtain ⟨chunk, produced, rest⟩ := follows.latest lsn isLatest
    exact ⟨chunk, kept chunk produced, rest⟩

theorem follows_kept (other : EffectStream Out) (published : other.publishedFrontierLsn = output.publishedFrontierLsn)
    (latest : other.latestDataLsn = output.latestDataLsn) : Follows input other next :=
  ⟨fun lsn same => follows.published lsn (published.symm.trans same),
    fun lsn same => follows.latest lsn (latest.symm.trans same)⟩

theorem follows_onward : Follows input output (next + 1) := by
  constructor
  · intro lsn isPublished
    obtain ⟨chunk, produced, isFrontier, passed, same⟩ := follows.published lsn isPublished
    exact ⟨chunk, produced, isFrontier, Nat.lt_succ_of_lt passed, same⟩
  · intro lsn isLatest
    obtain ⟨chunk, produced, isData, reached, same⟩ := follows.latest lsn isLatest
    exact ⟨chunk, produced, isData, Nat.le_succ_of_le reached, same⟩

variable {chunk : EffectChunk Row} (produced : chunk ∈ input.produced) (atCursor : chunk.chunkSeq = next)

include produced atCursor

-- Writing rows at the LSN of the chunk at the cursor.
theorem follows_data (kind : chunk.chunkKind = .data) (rowCount payloadBytes : Nat) (payload : List (EffectRow Out)) :
    Follows input (storeChunk output .data rowCount payloadBytes chunk.chunkLsn payload) next := by
  refine ⟨follows.published, ?_⟩
  intro lsn isLatest
  obtain rfl := Option.some.inj isLatest
  rcases greatest_lsn_cases output.latestDataLsn chunk.chunkLsn with isChunk | earlier
  · exact ⟨chunk, produced, kind, Nat.le_of_eq atCursor, isChunk.symm⟩
  · exact follows.latest _ earlier

-- Forwarding the frontier at the cursor.
theorem follows_frontier (kind : chunk.chunkKind = .frontier) :
    Follows input (storeChunk output .frontier 0 0 chunk.chunkLsn []) (next + 1) := by
  constructor
  · intro lsn isPublished
    obtain rfl := Option.some.inj isPublished
    exact ⟨chunk, produced, kind, atCursor ▸ Nat.lt_succ_self _, rfl⟩
  · intro lsn isLatest
    obtain ⟨source, sourceProduced, isData, reached, same⟩ := follows.latest lsn isLatest
    exact ⟨source, sourceProduced, isData, Nat.le_succ_of_le reached, same⟩

variable (good : StreamInvariant input) (operator : input.stream.isSource = false)

include good operator

theorem chunk_rises : reachedBy output.publishedFrontierLsn chunk.chunkLsn = false := by
  cases isPublished : output.publishedFrontierLsn with
  | none => rfl
  | some lsn =>
      obtain ⟨earlier, earlierProduced, isFrontier, passed, rfl⟩ := follows.published lsn isPublished
      have below := (operator_order operator good.produced earlierProduced produced (atCursor ▸ passed)).1 isFrontier
      simpa using below

-- The chunk at the cursor follows everything the output holds.
theorem chunk_data_fits (causal : Causal input) (kind : chunk.chunkKind = .data) (numbers : output.nextChunkSeq ≠ bigintMax) :
    DataFits output chunk.chunkLsn := by
  refine ⟨numbers, chunk_rises follows produced atCursor good operator, ?_⟩
  cases isLatest : output.latestDataLsn with
  | none => rfl
  | some lsn =>
      obtain ⟨earlier, earlierProduced, isData, reached, rfl⟩ := follows.latest lsn isLatest
      have order := causal earlier earlierProduced chunk produced isData kind (atCursor ▸ reached)
      simpa using order

-- A frontier lies above the last one and covers the data behind it.
theorem chunk_frontier_fits (kind : chunk.chunkKind = .frontier) (numbers : output.nextChunkSeq ≠ bigintMax) :
    FrontierFits output chunk.chunkLsn := by
  refine ⟨numbers, chunk_rises follows produced atCursor good operator, ?_⟩
  cases isLatest : output.latestDataLsn with
  | none => rfl
  | some lsn =>
      obtain ⟨earlier, earlierProduced, isData, reached, rfl⟩ := follows.latest lsn isLatest
      have before : earlier.chunkSeq < chunk.chunkSeq := by
        apply Nat.lt_of_le_of_ne (atCursor ▸ reached)
        intro same
        have isChunk := List.inj_on_of_nodup_map (produced_keys good) earlierProduced produced same
        rw [isChunk, kind] at isData
        cases isData
      have order := (operator_order operator good.produced earlierProduced produced before).2 kind
      simpa using order

end Follows

end Shiba.Execution
