import Shiba.Stream.Completeness

set_option autoImplicit false

namespace Shiba.Stream

variable {Row : Type}

section Stored

variable {history : StreamHistory Row} (good : StreamInvariant history)

include good

theorem produced_keys : (history.produced.map EffectChunk.chunkSeq).Nodup := by
  rw [good.produced.numbered]
  exact List.nodup_range'

theorem stored_keys : (history.stream.chunks.map EffectChunk.chunkSeq).Nodup :=
  (produced_keys good).sublist (good.produced.stored.map _)

theorem stored_found {chunk : EffectChunk Row} (stored : chunk ∈ history.stream.chunks) {next : Nat}
    (isNext : chunk.chunkSeq = next) : history.stream.chunks.find? (fun chunk => chunk.chunkSeq = next) = some chunk := by
  cases isFound : history.stream.chunks.find? fun chunk => chunk.chunkSeq = next with
  | none =>
      have absent := List.find?_eq_none.mp isFound chunk stored
      simp [isNext] at absent
  | some other =>
      have sameSeq : other.chunkSeq = next := by simpa using List.find?_some isFound
      rw [List.inj_on_of_nodup_map (stored_keys good) (List.mem_of_find?_eq_some isFound) stored (sameSeq.trans isNext.symm)]

-- A range of one number holds just its chunk.
theorem single_range (chunk : EffectChunk Row) (stored : chunk ∈ history.stream.chunks) :
    chunkRange history.stream chunk.chunkSeq (chunk.chunkSeq + 1) = [chunk] := by
  have keys := stored_keys good
  have inRange : chunk ∈ chunkRange history.stream chunk.chunkSeq (chunk.chunkSeq + 1) :=
    List.mem_filter.mpr ⟨stored, by simp⟩
  have only : ∀ other ∈ chunkRange history.stream chunk.chunkSeq (chunk.chunkSeq + 1), other = chunk := by
    intro other member
    obtain ⟨otherStored, bounds⟩ := List.mem_filter.mp member
    simp only [Bool.and_eq_true, decide_eq_true_eq] at bounds
    exact List.inj_on_of_nodup_map keys otherStored stored (by omega)
  have distinct : (chunkRange history.stream chunk.chunkSeq (chunk.chunkSeq + 1)).Nodup :=
    (List.Nodup.of_map _ keys).sublist List.filter_sublist
  have copies := List.eq_replicate_of_mem only
  have some := List.length_pos_of_mem inRange
  rw [copies, List.nodup_replicate] at distinct
  have single : (chunkRange history.stream chunk.chunkSeq (chunk.chunkSeq + 1)).length = 1 := by omega
  rw [copies, single]
  rfl

-- The chunk numbered n is the n-th one produced.
theorem produced_at {chunk : EffectChunk Row} (produced : chunk ∈ history.produced) :
    0 < chunk.chunkSeq ∧ history.produced[chunk.chunkSeq - 1]? = some chunk := by
  obtain ⟨index, inside, isChunk⟩ := List.mem_iff_getElem.mp produced
  have number : chunk.chunkSeq = 1 + index := by
    have same := congrArg (fun numbers : List Nat => numbers[index]?) good.produced.numbered
    simp only [List.getElem?_map, List.getElem?_eq_getElem inside, isChunk, Option.map_some,
      List.getElem?_range' inside, Nat.one_mul] at same
    exact Option.some.inj same
  have back : chunk.chunkSeq - 1 = index := by omega
  refine ⟨by omega, ?_⟩
  rw [back, List.getElem?_eq_getElem inside, isChunk]

end Stored

end Shiba.Stream
