import Shiba.Library.Budget
import Shiba.Postgres

set_option autoImplicit false

namespace Shiba.Stream

open Budget

inductive ChunkKind where
  | data
  | frontier
deriving DecidableEq, Repr

structure EffectRow (Row : Type) where
  weight : Int
  rowValue : Row
deriving DecidableEq, Repr

-- A chunk with the payload rows that are stored under its sequence in the same
-- statement and cascade from it.
structure EffectChunk (Row : Type) where
  chunkSeq : Nat
  chunkKind : ChunkKind
  rowCount : Nat
  payloadBytes : Nat
  chunkLsn : Lsn
  payload : List (EffectRow Row) := []
deriving DecidableEq, Repr

-- producer_kind with the identity columns its CHECK requires.
inductive Producer where
  | source (slotGeneration : Nat) (sourceOid : Oid)
  | operator (resultOid : Oid) (stageId : Nat)
deriving DecidableEq, Repr

structure ConsumerKey where
  resultOid : Oid
  consumerStageId : Nat
  inputPort : Nat
deriving DecidableEq, Repr

structure StreamConsumer where
  consumer : ConsumerKey
  nextChunkSeq : Nat
  activationLsn : Lsn
  consumedFrontierLsn : Lsn
deriving DecidableEq, Repr

structure StreamLimits where
  targetChunkRows : Nat
  targetChunkBytes : Nat
  highChunks : Nat
  highRows : Nat
  highBytes : Nat
  lowChunks : Nat
  lowRows : Nat
  lowBytes : Nat
deriving DecidableEq, Repr

-- One row of effect_streams with its chunks, in chunk_seq order, and consumers.
structure EffectStream (Row : Type) extends StreamLimits where
  streamId : Nat
  producer : Producer
  nextChunkSeq : Nat := 1
  firstRetainedChunkSeq : Nat := 1
  latestDataLsn : Option Lsn := none
  publishedFrontierLsn : Option Lsn := none
  bufferedChunks : Nat := 0
  bufferedRows : Nat := 0
  bufferedBytes : Nat := 0
  backpressured : Bool := false
  chunks : List (EffectChunk Row) := []
  consumers : List StreamConsumer := []
deriving DecidableEq, Repr

variable {Row : Type}

def Producer.isSource : Producer → Bool
  | .source _ _ => true
  | .operator _ _ => false

namespace EffectStream

def findConsumer (stream : EffectStream Row) (consumer : ConsumerKey) : Option StreamConsumer :=
  stream.consumers.find? fun row => row.consumer = consumer

def isSource (stream : EffectStream Row) : Bool := stream.producer.isSource

end EffectStream

-- What attach_effect_stream_consumer reads outside the stream: the consumer's
-- operator checkpoint, and UNIQUE (result_oid, consumer_stage_id, input_port).
structure AttachFacts where
  registered : Bool
  alreadyFed : Bool

def freshConsumer (stream : EffectStream Row) (consumer : ConsumerKey) (activationLsn : Lsn) : StreamConsumer :=
  match stream.producer with
  | .operator _ _ => ⟨consumer, 1, 0, 0⟩
  | .source _ _ => ⟨consumer, stream.nextChunkSeq, activationLsn, activationLsn⟩

def crossesGraphs (producer : Producer) (consumer : ConsumerKey) : Bool :=
  match producer with
  | .operator resultOid _ => decide (resultOid ≠ consumer.resultOid)
  | .source _ _ => false

def attachEffectStreamConsumer (stream : EffectStream Row) (facts : AttachFacts) (consumer : ConsumerKey)
    (activationLsn : Lsn) : Except Fault (EffectStream Row) :=
  if crossesGraphs stream.producer consumer then .error (.raised "23503" "operator edge crosses result graphs")
  else if !stream.isSource && decide (stream.nextChunkSeq ≠ 1) then
    .error (.raised "55000" "cannot attach an operator consumer after production starts")
  else if !facts.registered then
    .error (.raised "23503"
      s!"effect consumer stage {consumer.resultOid}/{consumer.consumerStageId} is not registered")
  else if facts.alreadyFed || (stream.findConsumer consumer).isSome then
    .error (.constraint "effect_stream_consumers_result_oid_consumer_stage_id_input_port_key")
  else .ok { stream with consumers := stream.consumers ++ [freshConsumer stream consumer activationLsn] }

inductive AppendOutcome where
  | appended (chunkSeq : Nat)
  | blocked
  | discarded
deriving DecidableEq, Repr

def AppendOutcome.text : AppendOutcome → String
  | .appended _ => "appended"
  | .blocked => "blocked"
  | .discarded => "discarded"

-- Only one oversized row may stand alone.
def resourcesFit (limits : StreamLimits) (kind : ChunkKind) (rowCount payloadBytes : Nat) : Bool :=
  match kind with
  | .data =>
      decide (1 ≤ rowCount) && decide (1 ≤ payloadBytes) && decide (rowCount ≤ limits.targetChunkRows)
        && (decide (payloadBytes ≤ limits.targetChunkBytes) || decide (rowCount = 1))
  | .frontier => decide (rowCount = 0) && decide (payloadBytes = 0)

-- A source follows the generation's published frontier and its own data; an
-- operator's data follows its last frontier, and its frontiers follow both.
def causalFault (stream : EffectStream Row) (generationPublishedLsn : Option Lsn) (kind : ChunkKind) (chunkLsn : Lsn) :
    Option Fault :=
  match stream.producer, kind with
  | .source _ _, .frontier => some (.raised "22000" "source streams contain data chunks only")
  | .source _ _, .data =>
      if reachedBy generationPublishedLsn chunkLsn then
        some (.raised "22000" "source chunk causal LSN must follow published ingress frontier")
      else if behind stream.latestDataLsn chunkLsn then
        some (.raised "22000" "source chunk causal LSN is not monotonic")
      else none
  | .operator _ _, .data =>
      if reachedBy stream.publishedFrontierLsn chunkLsn then
        some (.raised "22000" "operator data cannot follow its causal frontier")
      else none
  | .operator _ _, .frontier =>
      if reachedBy stream.publishedFrontierLsn chunkLsn || behind stream.latestDataLsn chunkLsn then
        some (.raised "22000" "operator frontier is not advancing past its data")
      else none

def storeChunk (stream : EffectStream Row) (kind : ChunkKind) (rowCount payloadBytes : Nat) (chunkLsn : Lsn)
    (payload : List (EffectRow Row)) : EffectStream Row :=
  let chunks := stream.bufferedChunks + 1
  let rows := stream.bufferedRows + rowCount
  let bytes := stream.bufferedBytes + payloadBytes
  { stream with
    chunks := stream.chunks ++ [⟨stream.nextChunkSeq, kind, rowCount, payloadBytes, chunkLsn, payload⟩]
    nextChunkSeq := stream.nextChunkSeq + 1
    latestDataLsn := if kind = .data then some (greatestLsn stream.latestDataLsn chunkLsn) else stream.latestDataLsn
    publishedFrontierLsn := if kind = .frontier then some chunkLsn else stream.publishedFrontierLsn
    bufferedChunks := chunks
    bufferedRows := rows
    bufferedBytes := bytes
    backpressured := decide (stream.highChunks ≤ chunks) || decide (stream.highRows ≤ rows)
      || decide (stream.highBytes ≤ bytes) }

-- `payload` is what the caller stores under the appended sequence.
def appendEffectStreamChunk (stream : EffectStream Row) (generationPublishedLsn : Option Lsn) (expectedChunkSeq : Nat)
    (kind : ChunkKind) (rowCount payloadBytes : Nat) (chunkLsn : Lsn) (payload : List (EffectRow Row)) :
    Except Fault (EffectStream Row × AppendOutcome) :=
  if expectedChunkSeq < 1 then .error (.raised "22023" "expected chunk sequence must be positive")
  else if expectedChunkSeq ≠ stream.nextChunkSeq then
    .error (.raised "40001" s!"effect stream expected chunk {stream.nextChunkSeq}, got {expectedChunkSeq}")
  else if stream.isSource && stream.consumers.isEmpty then .ok (stream, .discarded)
  else if stream.consumers.isEmpty then
    .error (.raised "55000" "operator effect stream has no registered consumer")
  else if expectedChunkSeq = bigintMax then .error (.raised "54000" "chunk sequence space exhausted")
  else if !resourcesFit stream.toStreamLimits kind rowCount payloadBytes then
    .error (.raised "54000" "invalid chunk resources; only one oversized row may stand alone")
  else
    match causalFault stream generationPublishedLsn kind chunkLsn with
    | some fault => .error fault
    | none =>
        if stream.backpressured then .ok (stream, .blocked)
        else .ok (storeChunk stream kind rowCount payloadBytes chunkLsn payload, .appended expectedChunkSeq)

structure ConsumerAdvance where
  expectedNextChunkSeq : Nat
  newNextChunkSeq : Nat
  expectedConsumedFrontierLsn : Lsn
  newConsumedFrontierLsn : Lsn
  chunkLimit : Nat
  rowLimit : Nat
  byteLimit : Nat
deriving DecidableEq, Repr

def validAdvance (advance : ConsumerAdvance) : Bool :=
  decide (1 ≤ advance.expectedNextChunkSeq) && decide (advance.expectedNextChunkSeq ≤ advance.newNextChunkSeq)
    && decide (advance.expectedConsumedFrontierLsn ≤ advance.newConsumedFrontierLsn)
    && !(decide (advance.newNextChunkSeq = advance.expectedNextChunkSeq)
      && decide (advance.newConsumedFrontierLsn = advance.expectedConsumedFrontierLsn))
    && decide (1 ≤ advance.chunkLimit)
    && decide (advance.newNextChunkSeq - advance.expectedNextChunkSeq ≤ advance.chunkLimit)

def chunkRange (stream : EffectStream Row) (first next : Nat) : List (EffectChunk Row) :=
  stream.chunks.filter fun chunk => decide (first ≤ chunk.chunkSeq) && decide (chunk.chunkSeq < next)

-- max(chunk_lsn) FILTER (WHERE chunk_kind = 'frontier').
def consumedOperatorFrontier (chunks : List (EffectChunk Row)) : Option Lsn :=
  ((chunks.filter fun chunk => chunk.chunkKind = .frontier).map EffectChunk.chunkLsn).max?

def derivedOperatorFrontier (current : Lsn) (consumed : Option Lsn) : Lsn := max current (consumed.getD current)

def nextUnconsumedLsn (stream : EffectStream Row) (next : Nat) : Option Lsn :=
  (stream.chunks.find? fun chunk => decide (next ≤ chunk.chunkSeq)).map EffectChunk.chunkLsn

def frontierFault (stream : EffectStream Row) (generationPublishedLsn : Option Lsn) (row : StreamConsumer)
    (advance : ConsumerAdvance) : Option Fault :=
  match stream.producer with
  | .source _ _ =>
      if row.consumedFrontierLsn < advance.newConsumedFrontierLsn
          ∧ reachedBy generationPublishedLsn advance.newConsumedFrontierLsn = false then
        some (.raised "22000" "source consumer cannot pass published ingress frontier")
      else
        match nextUnconsumedLsn stream advance.newNextChunkSeq with
        | none => none
        | some next =>
            if next ≤ advance.newConsumedFrontierLsn then
              some (.raised "22000" "source consumer frontier would skip published data")
            else none
  | .operator _ _ =>
      let consumed := consumedOperatorFrontier
        (chunkRange stream advance.expectedNextChunkSeq advance.newNextChunkSeq)
      if advance.newConsumedFrontierLsn ≠ derivedOperatorFrontier row.consumedFrontierLsn consumed then
        some (.raised "22000" "operator consumer frontier must match consumed frontier chunks")
      else none

def moveConsumer (consumer : ConsumerKey) (advance : ConsumerAdvance) (row : StreamConsumer) : StreamConsumer :=
  if row.consumer = consumer then
    { row with nextChunkSeq := advance.newNextChunkSeq, consumedFrontierLsn := advance.newConsumedFrontierLsn }
  else row

def advanceEffectStreamConsumer (stream : EffectStream Row) (generationPublishedLsn : Option Lsn)
    (consumer : ConsumerKey) (advance : ConsumerAdvance) : Except Fault (EffectStream Row) :=
  if !validAdvance advance then .error (.raised "22023" "invalid consumer advance or limits")
  else
    match stream.findConsumer consumer with
    | none => .error (.raised "P0002" "query returned no rows")
    | some row =>
        let range := chunkRange stream advance.expectedNextChunkSeq advance.newNextChunkSeq
        if row.nextChunkSeq ≠ advance.expectedNextChunkSeq
            ∨ row.consumedFrontierLsn ≠ advance.expectedConsumedFrontierLsn then
          .error (.raised "40001" "consumer cursor or frontier did not match expected state")
        else if stream.nextChunkSeq < advance.newNextChunkSeq then
          .error (.raised "22000" "consumer cannot advance beyond produced chunks")
        else if range.length ≠ advance.newNextChunkSeq - advance.expectedNextChunkSeq then
          .error (.raised "22000" "consumer range is not fully retained")
        else if 1 < range.length ∧ (advance.rowLimit < (range.map EffectChunk.rowCount).sum
            ∨ advance.byteLimit < (range.map EffectChunk.payloadBytes).sum) then
          .error (.raised "54000" "consumer advance exceeds its row or byte limit")
        else
          match frontierFault stream generationPublishedLsn row advance with
          | some fault => .error fault
          | none => .ok { stream with consumers := stream.consumers.map (moveConsumer consumer advance) }

-- A source without consumers may drop everything it has produced; an operator
-- without consumers drops nothing.
def slowestNext (stream : EffectStream Row) : Option Nat :=
  match (stream.consumers.map StreamConsumer.nextChunkSeq).min? with
  | some next => some next
  | none => if stream.isSource then some stream.nextChunkSeq else none

def garbageChunks (stream : EffectStream Row) (slowest chunkLimit rowLimit byteLimit : Nat) : List (EffectChunk Row) :=
  withinBudget
    (fun taken => decide ((taken.map EffectChunk.rowCount).sum ≤ rowLimit)
      && decide ((taken.map EffectChunk.payloadBytes).sum ≤ byteLimit))
    ((stream.chunks.filter fun chunk => decide (chunk.chunkSeq < slowest)).take chunkLimit)

def removeChunks (stream : EffectStream Row) (garbage : List (EffectChunk Row)) : EffectStream Row :=
  let chunks := stream.bufferedChunks - garbage.length
  let rows := stream.bufferedRows - (garbage.map EffectChunk.rowCount).sum
  let bytes := stream.bufferedBytes - (garbage.map EffectChunk.payloadBytes).sum
  { stream with
    chunks := stream.chunks.filter fun chunk => decide (chunk.chunkSeq ∉ garbage.map EffectChunk.chunkSeq)
    firstRetainedChunkSeq :=
      match (garbage.map EffectChunk.chunkSeq).max? with
      | some last => last + 1
      | none => stream.firstRetainedChunkSeq
    bufferedChunks := chunks
    bufferedRows := rows
    bufferedBytes := bytes
    backpressured := stream.backpressured
      && !(decide (chunks ≤ stream.lowChunks) && decide (rows ≤ stream.lowRows) && decide (bytes ≤ stream.lowBytes)) }

def gcEffectStream (stream : EffectStream Row) (chunkLimit rowLimit byteLimit : Nat) : Except Fault (EffectStream Row) :=
  if chunkLimit < 1 then .error (.raised "22023" "invalid GC limits")
  else
    match slowestNext stream with
    | none => .ok stream
    | some slowest => .ok (removeChunks stream (garbageChunks stream slowest chunkLimit rowLimit byteLimit))

-- effect_stream_consumers cascade from the dropped dataflow.
def dropResult (resultOid : Oid) (stream : EffectStream Row) : EffectStream Row :=
  { stream with consumers := stream.consumers.filter fun row => row.consumer.resultOid ≠ resultOid }

end Shiba.Stream
