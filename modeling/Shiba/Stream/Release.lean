import Shiba.Stream.Retention

set_option autoImplicit false

namespace Shiba.Stream

open Budget Transition

variable {Row : Type}

def ownedBy (resultOid : Oid) : Producer → Bool
  | .operator owner _ => decide (owner = resultOid)
  | .source _ _ => false

def takesStream (history : StreamHistory Row) : StreamOp Row → Bool
  | .dropResult resultOid => ownedBy resultOid history.stream.producer
  | _ => false

-- The streams of a dataflow's operators cascade with it, so a stream that is
-- still there was not dropped with its own result.
def liveStep (history : StreamHistory Row) (op : StreamOp Row) : Except Fault (StreamHistory Row) :=
  if takesStream history op then .error (.raised "P0002" "query returned no rows") else historyStep history op

structure GcLimits where
  chunkLimit : Nat
  rowLimit : Nat
  byteLimit : Nat
deriving DecidableEq, Repr

def collectStep (stream : EffectStream Row) (limits : GcLimits) : Except Fault (EffectStream Row) :=
  gcEffectStream stream limits.chunkLimit limits.rowLimit limits.byteLimit

-- An operator stream is read by its own dataflow only, and produces only when read.
structure Watched (stream : EffectStream Row) : Prop where
  ours : ∀ owner stageId, stream.producer = .operator owner stageId → ∀ row ∈ stream.consumers,
    row.consumer.resultOid = owner
  read : ∀ owner stageId, stream.producer = .operator owner stageId → stream.consumers = [] → stream.chunks = []

theorem live_step_ok {history after : StreamHistory Row} {op : StreamOp Row} (ok : liveStep history op = .ok after) :
    takesStream history op = false ∧ historyStep history op = .ok after := by
  unfold liveStep at ok
  split at ok
  · cases ok
  · rename_i kept
    exact ⟨eq_false_of_ne_true kept, ok⟩

theorem append_keeps_stream {history after : StreamHistory Row} {expected : Nat} {kind : ChunkKind} {rowCount payloadBytes : Nat}
    {chunkLsn : Lsn} {payload : List (EffectRow Row)}
    (ok : historyStep history (.append expected kind rowCount payloadBytes chunkLsn payload) = .ok after) :
    after.stream = history.stream ∨ (history.stream.consumers ≠ [] ∧
      after.stream = storeChunk history.stream kind rowCount payloadBytes chunkLsn payload) := by
  obtain ⟨⟨moved, outcome⟩, made, rfl⟩ := except_map_ok ok
  obtain ⟨⟨stream, appended⟩, stored, same⟩ := except_map_ok made
  cases same
  obtain ⟨_, ⟨_, rfl, _⟩ | ⟨read, _, _, ⟨_, rfl, _⟩ | ⟨_, _, rfl⟩⟩⟩ := append_cases stored
  · exact .inl rfl
  · exact .inl rfl
  · exact .inr ⟨read, rfl⟩

section

variable {activationLsn : Lsn} {facts : AttachFacts} (history : StreamHistory Row) {consumer : ConsumerKey}

theorem attach_within {stream after : EffectStream Row}
    (ok : attachEffectStreamConsumer stream facts consumer activationLsn = .ok after) :
    crossesGraphs stream.producer consumer = false := by
  unfold attachEffectStreamConsumer at ok
  split at ok
  · cases ok
  · rename_i within
    exact eq_false_of_ne_true within

theorem fresh_consumer_key (stream : EffectStream Row) (consumer : ConsumerKey) (activationLsn : Lsn) :
    (freshConsumer stream consumer activationLsn).consumer = consumer := by
  unfold freshConsumer
  split <;> rfl

theorem watched_attach {stream after : EffectStream Row} (watched : Watched stream)
    (ok : attachEffectStreamConsumer stream facts consumer activationLsn = .ok after) : Watched after := by
  have within := attach_within ok
  obtain ⟨_, _, rfl⟩ := attach_cases ok
  constructor
  · intro owner stageId producer row member
    rcases List.mem_append.mp member with old | new
    · exact watched.ours owner stageId producer row old
    · rw [List.mem_singleton.mp new, fresh_consumer_key]
      have isOperator : stream.producer = .operator owner stageId := producer
      rw [isOperator, crossesGraphs, decide_eq_false_iff_not, not_not] at within
      exact within.symm
  · intro owner stageId _ none
    simp at none

theorem watched_advance {stream after : EffectStream Row} (watched : Watched stream) {published : Option Lsn}
    {advance : ConsumerAdvance} (ok : advanceEffectStreamConsumer stream published consumer advance = .ok after) :
    Watched after := by
  obtain ⟨_, _, _, _, _, _, _, _, rfl⟩ := advance_cases ok
  constructor
  · intro owner stageId producer row member
    obtain ⟨before, old, rfl⟩ := List.mem_map.mp member
    have same := watched.ours owner stageId producer before old
    unfold moveConsumer
    split
    · exact same
    · exact same
  · intro owner stageId producer none
    exact watched.read owner stageId producer (List.map_eq_nil_iff.mp none)

theorem watched_collect (stream after : EffectStream Row) (watched : Watched stream) (limits : GcLimits)
    (ok : collectStep stream limits = .ok after) : Watched after := by
  rcases gc_cases _ _ _ _ _ ok with ⟨_, rfl⟩ | ⟨slowest, _, rfl⟩
  · exact watched
  · refine ⟨watched.ours, ?_⟩
    intro owner stageId producer none
    simp [removeChunks, watched.read owner stageId producer none]

theorem watched_step (after : StreamHistory Row) (op : StreamOp Row) (watched : Watched history.stream)
    (ok : liveStep history op = .ok after) : Watched after.stream := by
  obtain ⟨kept, ok⟩ := live_step_ok ok
  cases op with
  | append expected kind rowCount payloadBytes chunkLsn payload =>
      rcases append_keeps_stream ok with
        same | ⟨present, same⟩
      · rw [same]
        exact watched
      · rw [same]
        refine ⟨watched.ours, ?_⟩
        intro owner stageId _ none
        exact absurd none present
  | attach facts consumer activationLsn =>
      obtain ⟨stream, made, rfl⟩ := except_map_ok ok
      exact watched_attach watched made
  | advance consumer move =>
      obtain ⟨stream, made, rfl⟩ := except_map_ok ok
      exact watched_advance watched made
  | publish lsn =>
      obtain rfl := Except.ok.inj ok
      exact watched
  | collect chunkLimit rowLimit byteLimit =>
      obtain ⟨stream, made, rfl⟩ := except_map_ok ok
      exact watched_collect history.stream stream watched ⟨chunkLimit, rowLimit, byteLimit⟩ made
  | dropResult resultOid =>
      obtain rfl := Except.ok.inj ok
      constructor
      · intro owner stageId producer row member
        exact watched.ours owner stageId producer row (List.mem_of_mem_filter member)
      · intro owner stageId producer none
        -- Another dataflow's drop takes no reader of this stream.
        have isOperator : history.stream.producer = .operator owner stageId := producer
        have apart : owner ≠ resultOid := by simpa [takesStream, ownedBy, isOperator] using kept
        have all : history.stream.consumers = [] := by
          rw [List.eq_nil_iff_forall_not_mem]
          intro row member
          have stays := List.filter_eq_nil_iff.mp none row member
          rw [watched.ours owner stageId isOperator row member] at stays
          exact stays (decide_eq_true apart)
        exact watched.read owner stageId isOperator all

theorem watched_fresh (fresh : FreshChecked history) : Watched history.stream := by
  obtain ⟨⟨limits, streamId, producer, published, rfl⟩, _⟩ := fresh
  constructor
  · intro owner stageId _ row member
    cases member
  · intro owner stageId _ _
    rfl

theorem live_retained (reached : Reachable liveStep FreshChecked history) :
    Retained history.stream ∧ Watched history.stream := by
  refine reachable_invariant (fun state => Retained state.stream ∧ Watched state.stream) ?_ ?_ history reached
  · intro start fresh
    exact ⟨retained_fresh start fresh, watched_fresh start fresh⟩
  · intro before op after both taken
    exact ⟨retained_step both.1 (live_step_ok taken).2, watched_step before after op both.2 taken⟩

end

-- What GC may delete: every consumer has passed it.
def Deletable (stream : EffectStream Row) (chunk : EffectChunk Row) : Prop :=
  chunk ∈ stream.chunks ∧ ∀ row ∈ stream.consumers, chunk.chunkSeq < row.nextChunkSeq

section Progress

variable (stream : EffectStream Row) (good : Retained stream) (watched : Watched stream)

include good watched

theorem deletable_slowest (chunk : EffectChunk Row) (deletable : Deletable stream chunk) :
    ∃ slowest, slowestNext stream = some slowest ∧ chunk.chunkSeq < slowest := by
  obtain ⟨stored, passed⟩ := deletable
  unfold slowestNext
  cases least : (stream.consumers.map StreamConsumer.nextChunkSeq).min? with
  | some next =>
      obtain ⟨row, member, rfl⟩ := List.mem_map.mp (List.min?_eq_some_iff.mp least).1
      exact ⟨_, rfl, passed row member⟩
  | none =>
      have unread : stream.consumers = [] := List.map_eq_nil_iff.mp (List.min?_eq_none_iff.mp least)
      cases producer : stream.producer with
      | source slotGeneration sourceOid =>
          refine ⟨stream.nextChunkSeq, by simp [EffectStream.isSource, producer, Producer.isSource], ?_⟩
          have next := good.next
          have inRange : chunk.chunkSeq ∈ stream.chunks.map EffectChunk.chunkSeq := List.mem_map.mpr ⟨chunk, stored, rfl⟩
          rw [good.stored, List.mem_range'_1] at inRange
          omega
      | operator owner stageId =>
          rw [watched.read owner stageId producer unread] at stored
          cases stored

-- The first deletable chunk goes whatever the row and byte limits are.
theorem collect_progress {limits : GcLimits} (positive : 1 ≤ limits.chunkLimit) {chunk : EffectChunk Row}
    (deletable : Deletable stream chunk) :
    ∃ after, collectStep stream limits = .ok after ∧ after.chunks.length < stream.chunks.length := by
  obtain ⟨slowest, isSlowest, below⟩ := deletable_slowest stream good watched chunk deletable
  refine ⟨removeChunks stream (garbageChunks stream slowest limits.chunkLimit limits.rowLimit limits.byteLimit), ?_, ?_⟩
  · rw [collectStep, gcEffectStream, if_neg (Nat.not_lt.mpr positive), isSlowest]
  · obtain ⟨count, within, isPrefix⟩ := garbage_prefix stream good slowest limits.chunkLimit
    have candidates : (stream.chunks.filter fun chunk => decide (chunk.chunkSeq < slowest)).take limits.chunkLimit ≠ [] := by
      have present : chunk ∈ stream.chunks.filter fun chunk => decide (chunk.chunkSeq < slowest) :=
        List.mem_filter.mpr ⟨deletable.1, decide_eq_true below⟩
      intro none
      rcases List.take_eq_nil_iff.mp none with zero | empty
      · omega
      · rw [empty] at present
        cases present
    obtain ⟨kept, isKept, some, _⟩ := within_budget_prefix
      (fun chunks : List (EffectChunk Row) => decide ((chunks.map EffectChunk.rowCount).sum ≤ limits.rowLimit)
        && decide ((chunks.map EffectChunk.payloadBytes).sum ≤ limits.byteLimit))
      ((stream.chunks.filter fun chunk => decide (chunk.chunkSeq < slowest)).take limits.chunkLimit)
      (garbage_fit_down _)
    have positiveCount : 0 < count := by
      apply Nat.pos_of_ne_zero
      intro zero
      rw [zero, List.take_zero] at isPrefix
      have empty := isKept.symm.trans isPrefix
      rcases List.take_eq_nil_iff.mp empty with none | none
      · exact absurd none (Nat.ne_of_gt (some candidates))
      · exact candidates none
    have distinct : (stream.chunks.map EffectChunk.chunkSeq).Nodup := by
      rw [good.stored]
      exact List.nodup_range'
    rw [isPrefix]
    change (stream.chunks.filter fun item => decide (item.chunkSeq ∉ (stream.chunks.take count).map EffectChunk.chunkSeq)).length < _
    rw [filter_not_taken distinct count, List.length_drop]
    omega

end Progress

-- Every consumer has read everything.
def FullyRead (stream : EffectStream Row) : Prop := ∀ row ∈ stream.consumers, row.nextChunkSeq = stream.nextChunkSeq

instance (stream : EffectStream Row) : Decidable (FullyRead stream) :=
  inferInstanceAs (Decidable (∀ row ∈ stream.consumers, row.nextChunkSeq = stream.nextChunkSeq))

section

variable (stream : EffectStream Row)

theorem fully_read_deletable (good : Retained stream) (read : FullyRead stream) (chunk : EffectChunk Row)
    (stored : chunk ∈ stream.chunks) : Deletable stream chunk := by
  refine ⟨stored, ?_⟩
  intro row member
  have next := good.next
  have inRange : chunk.chunkSeq ∈ stream.chunks.map EffectChunk.chunkSeq := List.mem_map.mpr ⟨chunk, stored, rfl⟩
  rw [good.stored, List.mem_range'_1] at inRange
  rw [read row member]
  omega

theorem empty_released (good : Retained stream) (empty : stream.chunks = []) :
    stream.backpressured = false := by
  apply eq_false_of_ne_true
  intro pressed
  have chunks := good.chunks
  have rows := good.rows
  have bytes := good.bytes
  rw [empty] at chunks rows bytes
  simp only [List.length_nil, List.map_nil, List.sum_nil] at chunks rows bytes
  rcases good.pressed pressed with low | low | low
  · omega
  · omega
  · omega

theorem collect_keeps (after : EffectStream Row) (limits : GcLimits) (ok : collectStep stream limits = .ok after) :
    after.consumers = stream.consumers ∧ after.nextChunkSeq = stream.nextChunkSeq ∧
      after.chunks.length ≤ stream.chunks.length := by
  rcases gc_cases _ _ _ _ _ ok with ⟨_, rfl⟩ | ⟨slowest, _, rfl⟩
  · exact ⟨rfl, rfl, Nat.le_refl _⟩
  · exact ⟨rfl, rfl, List.length_filter_le _ _⟩

theorem collect_total (limits : GcLimits) (positive : 1 ≤ limits.chunkLimit) :
    ∃ after, collectStep stream limits = .ok after := by
  unfold collectStep gcEffectStream
  rw [if_neg (Nat.not_lt.mpr positive)]
  cases slowestNext stream with
  | none => exact ⟨_, rfl⟩
  | some slowest => exact ⟨_, rfl⟩

end

-- One call for each stored chunk is enough, whatever the limits are.
theorem collect_all (limits : List GcLimits) (positive : ∀ limit ∈ limits, 1 ≤ limit.chunkLimit) (stream : EffectStream Row)
    (good : Retained stream) (watched : Watched stream) (read : FullyRead stream)
    (enough : stream.chunks.length ≤ limits.length) :
    ∃ after, run collectStep stream limits = .ok after ∧ Retained after ∧ after.chunks = [] := by
  induction limits generalizing stream with
  | nil => exact ⟨stream, rfl, good, List.eq_nil_of_length_eq_zero (Nat.le_zero.mp enough)⟩
  | cons limit rest ih =>
      have first := positive limit List.mem_cons_self
      obtain ⟨next, ok⟩ := collect_total stream limit first
      obtain ⟨consumers, nextSeq, fewer⟩ := collect_keeps stream next limit ok
      have shorter : next.chunks.length ≤ rest.length := by
        rw [List.length_cons] at enough
        cases chunks : stream.chunks with
        | nil =>
            rw [chunks, List.length_nil] at fewer
            omega
        | cons chunk others =>
            have deletable := fully_read_deletable stream good read chunk (by rw [chunks]; exact List.mem_cons_self)
            obtain ⟨other, same, less⟩ := collect_progress stream good watched first deletable
            obtain rfl := Except.ok.inj (same.symm.trans ok)
            omega
      have stillRead : FullyRead next := by
        intro row member
        rw [nextSeq]
        rw [consumers] at member
        exact read row member
      obtain ⟨after, ran, done⟩ := ih (fun other member => positive other (List.mem_cons_of_mem _ member)) next
        (retained_collect stream next good _ _ _ ok) (watched_collect stream next watched limit ok) stillRead shorter
      refine ⟨after, ?_, done⟩
      rw [run_cons, ok]
      exact ran

-- In every reachable state a call deletes something whenever it may, and a stream
-- that everybody has read is emptied and released by any sequence of calls.
theorem backpressure_releasable (history : StreamHistory Row) (reached : Reachable liveStep FreshChecked history) :
    (∀ limits : GcLimits, 1 ≤ limits.chunkLimit → ∀ chunk, Deletable history.stream chunk →
      ∃ after, collectStep history.stream limits = .ok after ∧ after.chunks.length < history.stream.chunks.length) ∧
      (FullyRead history.stream → ∀ limits : List GcLimits, (∀ limit ∈ limits, 1 ≤ limit.chunkLimit) →
        history.stream.chunks.length ≤ limits.length →
          ∃ after, run collectStep history.stream limits = .ok after ∧ after.chunks = [] ∧ after.backpressured = false) := by
  obtain ⟨good, watched⟩ := live_retained history reached
  constructor
  · intro limits positive chunk deletable
    exact collect_progress history.stream good watched positive deletable
  · intro read limits positive enough
    obtain ⟨after, ran, stays, empty⟩ := collect_all limits positive history.stream good watched read enough
    exact ⟨after, ran, empty, empty_released after stays empty⟩

-- A source stream at its high watermark, read to its end.
def pressedStream : StreamHistory Nat :=
  attempts liveStep ⟨freshStream ⟨8, 64, 2, 64, 512, 0, 16, 128⟩ 1 (.source 1 100), none, []⟩
    [.attach ⟨true, false⟩ scanConsumer 0, .append 1 .data 1 9 7 [⟨1, 3⟩], .append 2 .data 2 18 8 [⟨1, 4⟩, ⟨-1, 5⟩],
      .advance scanConsumer ⟨1, 3, 0, 0, 2, 64, 512⟩]

theorem backpressure_releasable_pressed :
    pressedStream.stream.backpressured = true ∧
      ∃ after, run collectStep pressedStream.stream [⟨1, 0, 0⟩, ⟨1, 0, 0⟩] = .ok after ∧ after.chunks = [] ∧
        after.backpressured = false :=
  ⟨by decide, (backpressure_releasable pressedStream (reachable_attempts _ _ (.start _
    ⟨⟨⟨8, 64, 2, 64, 512, 0, 16, 128⟩, 1, _, none, rfl⟩, by decide, by decide, by decide, by decide, by decide⟩))).2
      (by decide) [⟨1, 0, 0⟩, ⟨1, 0, 0⟩] (by decide) (by decide)⟩

end Shiba.Stream
