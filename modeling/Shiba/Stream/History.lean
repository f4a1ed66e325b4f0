import Shiba.Library.Transition
import Shiba.Stream.Effects

set_option autoImplicit false

namespace Shiba.Stream

open Transition

variable {Row : Type}

-- One stream beside the frontier of its generation and everything it ever
-- produced; garbage collection drops stored chunks only.
structure StreamHistory (Row : Type) where
  stream : EffectStream Row
  published : Option Lsn := none
  produced : List (EffectChunk Row) := []
deriving DecidableEq, Repr

inductive StreamOp (Row : Type) where
  | append (expectedChunkSeq : Nat) (kind : ChunkKind) (rowCount payloadBytes : Nat) (chunkLsn : Lsn)
      (payload : List (EffectRow Row))
  | attach (facts : AttachFacts) (consumer : ConsumerKey) (activationLsn : Lsn)
  | advance (consumer : ConsumerKey) (move : ConsumerAdvance)
  | publish (lsn : Lsn)
  | collect (chunkLimit rowLimit byteLimit : Nat)
  | dropResult (resultOid : Oid)

def appendedChunks (kind : ChunkKind) (rowCount payloadBytes : Nat) (chunkLsn : Lsn) (payload : List (EffectRow Row)) :
    AppendOutcome → List (EffectChunk Row)
  | .appended chunkSeq => [⟨chunkSeq, kind, rowCount, payloadBytes, chunkLsn, payload⟩]
  | _ => []

def appendHistory (history : StreamHistory Row) (expectedChunkSeq : Nat) (kind : ChunkKind) (rowCount payloadBytes : Nat)
    (chunkLsn : Lsn) (payload : List (EffectRow Row)) : Except Fault (StreamHistory Row × AppendOutcome) :=
  (appendEffectStreamChunk history.stream history.published expectedChunkSeq kind rowCount payloadBytes chunkLsn
    payload).map fun result =>
      ({ history with
          stream := result.1
          produced := history.produced ++ appendedChunks kind rowCount payloadBytes chunkLsn payload result.2 },
        result.2)

-- published_lsn only ever rises.
def historyStep (history : StreamHistory Row) : StreamOp Row → Except Fault (StreamHistory Row)
  | .append expectedChunkSeq kind rowCount payloadBytes chunkLsn payload =>
      (appendHistory history expectedChunkSeq kind rowCount payloadBytes chunkLsn payload).map Prod.fst
  | .attach facts consumer activationLsn =>
      (attachEffectStreamConsumer history.stream facts consumer activationLsn).map fun after =>
        { history with stream := after }
  | .advance consumer move =>
      (advanceEffectStreamConsumer history.stream history.published consumer move).map fun after =>
        { history with stream := after }
  | .publish lsn => .ok { history with published := some (greatestLsn history.published lsn) }
  | .collect chunkLimit rowLimit byteLimit =>
      (gcEffectStream history.stream chunkLimit rowLimit byteLimit).map fun after => { history with stream := after }
  | .dropResult resultOid => .ok { history with stream := dropResult resultOid history.stream }

-- A stream row as its INSERT leaves it.
def freshStream (limits : StreamLimits) (streamId : Nat) (producer : Producer) : EffectStream Row :=
  { limits with streamId, producer }

def Fresh (history : StreamHistory Row) : Prop :=
  ∃ limits streamId producer published, history = ⟨freshStream limits streamId producer, published, []⟩

-- What append leaves true of two chunks in stream order.
def ChunkOrder (producer : Producer) (a b : EffectChunk Row) : Prop :=
  match producer with
  | .source _ _ => a.chunkLsn ≤ b.chunkLsn
  | .operator _ _ =>
      (a.chunkKind = .frontier → a.chunkLsn < b.chunkLsn) ∧ (b.chunkKind = .frontier → a.chunkLsn ≤ b.chunkLsn)

-- The LSN below which no further data can be appended.
def closedThrough (history : StreamHistory Row) (frontier : Lsn) : Bool :=
  match history.stream.producer with
  | .source _ _ => reachedBy history.published frontier
  | .operator _ _ => reachedBy history.stream.publishedFrontierLsn frontier

structure Passed (history : StreamHistory Row) (next : Nat) (frontier : Lsn) : Prop where
  later : ∀ chunk ∈ history.produced, chunk.chunkKind = .data → next ≤ chunk.chunkSeq → frontier < chunk.chunkLsn
  closed : closedThrough history frontier = true

structure ProducedInOrder (history : StreamHistory Row) : Prop where
  numbered : history.produced.map EffectChunk.chunkSeq = List.range' 1 history.produced.length
  next : history.stream.nextChunkSeq = history.produced.length + 1
  stored : history.stream.chunks.Sublist history.produced
  ordered : ∀ a ∈ history.produced, ∀ b ∈ history.produced, a.chunkSeq < b.chunkSeq →
    ChunkOrder history.stream.producer a b
  data : ∀ chunk ∈ history.produced, chunk.chunkKind = .data →
    ∃ latest, history.stream.latestDataLsn = some latest ∧ chunk.chunkLsn ≤ latest
  frontiers : ∀ chunk ∈ history.produced, chunk.chunkKind = .frontier → history.stream.isSource = false ∧
    ∃ latest, history.stream.publishedFrontierLsn = some latest ∧ chunk.chunkLsn ≤ latest

structure ConsumerInvariant (history : StreamHistory Row) (row : StreamConsumer) : Prop where
  within : row.nextChunkSeq ≤ history.stream.nextChunkSeq
  retained : ∀ chunk ∈ history.produced, row.nextChunkSeq ≤ chunk.chunkSeq → chunk ∈ history.stream.chunks
  consumed : ∀ chunk ∈ history.produced, chunk.chunkKind = .frontier → chunk.chunkSeq < row.nextChunkSeq →
    chunk.chunkLsn ≤ row.consumedFrontierLsn
  witnessed : history.stream.isSource = false → row.activationLsn < row.consumedFrontierLsn →
    ∃ chunk ∈ history.produced, chunk.chunkKind = .frontier ∧ chunk.chunkSeq < row.nextChunkSeq ∧
      chunk.chunkLsn = row.consumedFrontierLsn
  complete : row.activationLsn < row.consumedFrontierLsn → Passed history row.nextChunkSeq row.consumedFrontierLsn

structure StreamInvariant (history : StreamHistory Row) : Prop where
  produced : ProducedInOrder history
  keys : (history.stream.consumers.map StreamConsumer.consumer).Nodup
  consumers : ∀ row ∈ history.stream.consumers, ConsumerInvariant history row

theorem stream_invariant_fresh (history : StreamHistory Row) (fresh : Fresh history) : StreamInvariant history := by
  obtain ⟨limits, streamId, producer, published, rfl⟩ := fresh
  refine ⟨⟨rfl, rfl, List.Sublist.refl _, ?_, ?_, ?_⟩, List.nodup_nil, ?_⟩
  · intro a member
    cases member
  · intro chunk member
    cases member
  · intro chunk member
    cases member
  · intro row member
    cases member

theorem greatest_lsn_reached (published : Option Lsn) (lsn frontier : Lsn) (reached : reachedBy published frontier = true) :
    reachedBy (some (greatestLsn published lsn)) frontier = true := by
  cases published with
  | none => cases reached
  | some value =>
      simp only [reached_by_some, decide_eq_true_eq, greatestLsn] at reached ⊢
      exact Nat.le_trans reached (Nat.le_max_left value lsn)

theorem produced_below (history : StreamHistory Row) (produced : ProducedInOrder history) :
    ∀ chunk ∈ history.produced, chunk.chunkSeq < history.stream.nextChunkSeq := by
  intro chunk member
  have inRange : chunk.chunkSeq ∈ List.range' 1 history.produced.length :=
    produced.numbered ▸ List.mem_map.mpr ⟨chunk, member, rfl⟩
  have next := produced.next
  rw [List.mem_range'_1] at inRange
  omega

theorem is_source_data {history : StreamHistory Row} (produced : ProducedInOrder history)
    (isSource : history.stream.isSource = true) {chunk : EffectChunk Row} (member : chunk ∈ history.produced) :
    chunk.chunkKind = .data := by
  cases chunkKind : chunk.chunkKind with
  | data => rfl
  | frontier =>
      have notSource := (produced.frontiers chunk member chunkKind).1
      rw [isSource] at notSource
      cases notSource

theorem passed_publish {history : StreamHistory Row} (lsn : Lsn) {next : Nat} {frontier : Lsn}
    (passed : Passed history next frontier) :
    Passed { history with published := some (greatestLsn history.published lsn) } next frontier := by
  refine ⟨passed.later, ?_⟩
  have closed := passed.closed
  unfold closedThrough at closed ⊢
  cases producer : history.stream.producer with
  | source slotGeneration sourceOid =>
      simp only [producer] at closed ⊢
      exact greatest_lsn_reached _ _ _ closed
  | operator resultOid stageId => simpa [producer] using closed

section Append

variable (history : StreamHistory Row) (kind : ChunkKind) (rowCount payloadBytes : Nat) (chunkLsn : Lsn)
  (payload : List (EffectRow Row))

def newChunk (stream : EffectStream Row) (kind : ChunkKind) (rowCount payloadBytes : Nat) (chunkLsn : Lsn)
    (payload : List (EffectRow Row)) : EffectChunk Row :=
  ⟨stream.nextChunkSeq, kind, rowCount, payloadBytes, chunkLsn, payload⟩

def appendedHistory (history : StreamHistory Row) (kind : ChunkKind) (rowCount payloadBytes : Nat) (chunkLsn : Lsn)
    (payload : List (EffectRow Row)) : StreamHistory Row :=
  { history with
    stream := storeChunk history.stream kind rowCount payloadBytes chunkLsn payload
    produced := history.produced ++ [newChunk history.stream kind rowCount payloadBytes chunkLsn payload] }

variable {history kind chunkLsn}

-- An append changes nothing but by storing its chunk at the tail.
theorem append_history_cases {after : StreamHistory Row} {expected : Nat}
    (ok : historyStep history (.append expected kind rowCount payloadBytes chunkLsn payload) = .ok after) :
    after = history ∨ (causalFault history.stream history.published kind chunkLsn = none ∧
      resourcesFit history.stream.toStreamLimits kind rowCount payloadBytes = true ∧
      after = appendedHistory history kind rowCount payloadBytes chunkLsn payload) := by
  simp only [historyStep, appendHistory] at ok
  cases appended : appendEffectStreamChunk history.stream history.published expected kind rowCount payloadBytes chunkLsn
      payload with
  | error fault =>
      rw [appended] at ok
      cases ok
  | ok result =>
      rw [appended] at ok
      obtain rfl := Except.ok.inj ok
      obtain ⟨rfl, ⟨outcome, same, _⟩ | ⟨_, fits, causal, ⟨outcome, same, _⟩ | ⟨outcome, _, stored⟩⟩⟩ :=
        append_cases appended
      · exact .inl (by simp [outcome, same, appendedChunks])
      · exact .inl (by simp [outcome, same, appendedChunks])
      · exact .inr ⟨causal, fits, by simp [outcome, stored, appendedChunks, appendedHistory, newChunk]⟩

variable (causal : causalFault history.stream history.published kind chunkLsn = none)

include causal

theorem source_append_data (slotGeneration : Nat) (sourceOid : Oid)
    (isSource : history.stream.producer = .source slotGeneration sourceOid) :
    kind = .data ∧ reachedBy history.published chunkLsn = false ∧ behind history.stream.latestDataLsn chunkLsn = false := by
  cases kind with
  | frontier => simp [causalFault, isSource] at causal
  | data =>
      simp only [causalFault, isSource] at causal
      split at causal
      · cases causal
      · rename_i unreached
        split at causal
        · cases causal
        · rename_i monotone
          exact ⟨rfl, by simpa using unreached, by simpa using monotone⟩

theorem operator_append_after (resultOid : Oid) (stageId : Nat)
    (isOperator : history.stream.producer = .operator resultOid stageId) :
    reachedBy history.stream.publishedFrontierLsn chunkLsn = false ∧
      (kind = .frontier → behind history.stream.latestDataLsn chunkLsn = false) := by
  cases kind with
  | data =>
      simp only [causalFault, isOperator] at causal
      split at causal
      · cases causal
      · rename_i unreached
        exact ⟨by simpa using unreached, fun wrong => by cases wrong⟩
  | frontier =>
      simp only [causalFault, isOperator] at causal
      split at causal
      · cases causal
      · rename_i free
        simp only [Bool.or_eq_true, not_or] at free
        exact ⟨by simpa using free.1, fun _ => by simpa using free.2⟩

theorem closed_append (frontier : Lsn) (closed : closedThrough history frontier = true) : frontier < chunkLsn := by
  unfold closedThrough at closed
  cases producer : history.stream.producer with
  | source slotGeneration sourceOid =>
      have unreached := (source_append_data causal _ _ producer).2.1
      rw [producer] at closed
      cases published : history.published with
      | none => simp [published] at closed
      | some value =>
          simp only [published, reached_by_some, decide_eq_true_eq, decide_eq_false_iff_not] at closed unreached
          exact Nat.lt_of_le_of_lt closed (Nat.lt_of_not_le unreached)
  | operator resultOid stageId =>
      have unreached := (operator_append_after causal _ _ producer).1
      rw [producer] at closed
      cases latest : history.stream.publishedFrontierLsn with
      | none => simp [latest] at closed
      | some value =>
          simp only [latest, reached_by_some, decide_eq_true_eq, decide_eq_false_iff_not] at closed unreached
          exact Nat.lt_of_le_of_lt closed (Nat.lt_of_not_le unreached)

theorem passed_append (next : Nat) (frontier : Lsn) (passed : Passed history next frontier) :
    Passed (appendedHistory history kind rowCount payloadBytes chunkLsn payload) next frontier := by
  have later := closed_append causal frontier passed.closed
  constructor
  · intro chunk member isData reached
    rcases List.mem_append.mp member with old | fresh
    · exact passed.later chunk old isData reached
    · rw [List.mem_singleton.mp fresh]
      exact later
  · have closed := passed.closed
    unfold closedThrough at closed ⊢
    simp only [appendedHistory, storeChunk]
    cases producer : history.stream.producer with
    | source slotGeneration sourceOid => simpa [producer] using closed
    | operator resultOid stageId =>
        simp only [producer] at closed ⊢
        split
        · exact decide_eq_true (Nat.le_of_lt later)
        · exact closed

-- Every frontier chunk of a stream lies below whatever is appended after it.
theorem frontier_below (produced : ProducedInOrder history) (chunk : EffectChunk Row) (member : chunk ∈ history.produced)
    (isFrontier : chunk.chunkKind = .frontier) : chunk.chunkLsn < chunkLsn := by
  obtain ⟨notSource, latest, isLatest, within⟩ := produced.frontiers chunk member isFrontier
  apply Nat.lt_of_le_of_lt within
  apply closed_append causal
  unfold closedThrough
  cases producer : history.stream.producer with
  | source slotGeneration sourceOid => simp [EffectStream.isSource, producer, Producer.isSource] at notSource
  | operator resultOid stageId => simp [isLatest]

theorem produced_append (produced : ProducedInOrder history) :
    ProducedInOrder (appendedHistory history kind rowCount payloadBytes chunkLsn payload) := by
  have earlier := produced_below history produced
  have follows : ∀ chunk ∈ history.produced, ChunkOrder history.stream.producer chunk
      (newChunk history.stream kind rowCount payloadBytes chunkLsn payload) := by
    intro chunk member
    cases producer : history.stream.producer with
    | source slotGeneration sourceOid =>
        obtain ⟨_, _, monotone⟩ := source_append_data causal _ _ producer
        have isData := is_source_data produced (by simp [EffectStream.isSource, producer, Producer.isSource]) member
        obtain ⟨latest, isLatest, within⟩ := produced.data chunk member isData
        simp only [isLatest, behind_some, decide_eq_false_iff_not] at monotone
        exact Nat.le_trans within (Nat.le_of_not_lt monotone)
    | operator resultOid stageId =>
        have monotone := (operator_append_after causal _ _ producer).2
        have afterFrontier := frontier_below causal produced chunk member
        refine ⟨afterFrontier, ?_⟩
        intro isFrontier
        cases chunkKind : chunk.chunkKind with
        | frontier => exact Nat.le_of_lt (afterFrontier chunkKind)
        | data =>
            obtain ⟨latest, isLatest, within⟩ := produced.data chunk member chunkKind
            have ahead := monotone isFrontier
            simp only [isLatest, behind_some, decide_eq_false_iff_not] at ahead
            exact Nat.le_trans within (Nat.le_of_not_lt ahead)
  refine ⟨?_, ?_, ?_, ?_, ?_, ?_⟩
  · simp only [appendedHistory, newChunk, List.map_append, List.map_singleton, List.length_append, List.length_singleton,
      produced.numbered, produced.next, range_append_one]
  · simp [appendedHistory, storeChunk, produced.next]
  · exact produced.stored.append (List.Sublist.refl _)
  · intro a aMember b bMember before
    rcases List.mem_append.mp aMember with aOld | aNew
    · rcases List.mem_append.mp bMember with bOld | bNew
      · exact produced.ordered a aOld b bOld before
      · rw [List.mem_singleton.mp bNew]
        exact follows a aOld
    · rw [List.mem_singleton.mp aNew] at before
      rcases List.mem_append.mp bMember with bOld | bNew
      · exact absurd before (Nat.lt_asymm (earlier b bOld))
      · rw [List.mem_singleton.mp bNew] at before
        exact absurd before (Nat.lt_irrefl _)
  · intro chunk member isData
    rcases List.mem_append.mp member with old | fresh
    · obtain ⟨latest, isLatest, within⟩ := produced.data chunk old isData
      by_cases kindData : kind = .data
      · refine ⟨greatestLsn history.stream.latestDataLsn chunkLsn, by simp [appendedHistory, storeChunk, kindData], ?_⟩
        rw [isLatest]
        exact Nat.le_trans within (Nat.le_max_left _ _)
      · exact ⟨latest, by simp [appendedHistory, storeChunk, kindData, isLatest], within⟩
    · rw [List.mem_singleton.mp fresh] at isData ⊢
      have kindData : kind = .data := isData
      refine ⟨greatestLsn history.stream.latestDataLsn chunkLsn, by simp [appendedHistory, storeChunk, kindData], ?_⟩
      cases history.stream.latestDataLsn with
      | none => exact Nat.le_refl _
      | some latest => exact Nat.le_max_right _ _
  · intro chunk member isFrontier
    rcases List.mem_append.mp member with old | fresh
    · obtain ⟨notSource, latest, isLatest, within⟩ := produced.frontiers chunk old isFrontier
      refine ⟨notSource, ?_⟩
      by_cases kindFrontier : kind = .frontier
      · exact ⟨chunkLsn, by simp [appendedHistory, storeChunk, kindFrontier],
          Nat.le_of_lt (frontier_below causal produced chunk old isFrontier)⟩
      · exact ⟨latest, by simp [appendedHistory, storeChunk, kindFrontier, isLatest], within⟩
    · rw [List.mem_singleton.mp fresh] at isFrontier ⊢
      have kindFrontier : kind = .frontier := isFrontier
      refine ⟨?_, chunkLsn, by simp [appendedHistory, storeChunk, kindFrontier], Nat.le_refl _⟩
      cases producer : history.stream.producer with
      | source slotGeneration sourceOid =>
          have isData := (source_append_data causal _ _ producer).1
          exact absurd (isData.symm.trans kindFrontier) (by simp)
      | operator resultOid stageId => simp [appendedHistory, storeChunk, EffectStream.isSource, producer, Producer.isSource]

theorem consumer_append (row : StreamConsumer) (good : ConsumerInvariant history row) :
    ConsumerInvariant (appendedHistory history kind rowCount payloadBytes chunkLsn payload) row := by
  refine ⟨?_, ?_, ?_, ?_, ?_⟩
  · exact Nat.le_succ_of_le good.within
  · intro chunk member ahead
    rcases List.mem_append.mp member with old | fresh
    · exact List.mem_append_left _ (good.retained chunk old ahead)
    · rw [List.mem_singleton.mp fresh]
      exact List.mem_append_right _ (List.mem_singleton.mpr rfl)
  · intro chunk member isFrontier passed
    rcases List.mem_append.mp member with old | fresh
    · exact good.consumed chunk old isFrontier passed
    · rw [List.mem_singleton.mp fresh] at passed
      exact absurd passed (Nat.not_lt.mpr good.within)
  · intro notSource risen
    obtain ⟨chunk, member, rest⟩ := good.witnessed notSource risen
    exact ⟨chunk, List.mem_append_left _ member, rest⟩
  · intro risen
    exact passed_append rowCount payloadBytes payload causal _ _ (good.complete risen)

end Append

end Shiba.Stream
