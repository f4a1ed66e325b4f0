import Shiba.Publication.Prefix
import Shiba.Publication.Headers

set_option autoImplicit false

namespace Shiba.Publication

open SerialTable Transition Shiba.Ingress Shiba.Stream

variable {Payload Row : Type}

-- What a publication did, kept beside the catalog: chunks outlive their garbage
-- collection here, and a discard keeps the consumers it found.
inductive LogEntry (Row : Type) where
  | chunk (slotGeneration : Nat) (sourceOid : Oid) (streamId : Nat) (stored : EffectChunk Row)
  | discard (slotGeneration : Nat) (sourceOid : Oid) (ingressTxnId firstInputSeq lastInputSeq : Nat) (finalLsn : Lsn)
      (consumers : List StreamConsumer)

structure LoggedCatalog (Payload Row : Type) where
  catalog : SourceCatalog Payload Row
  log : List (LogEntry Row)

def discardEntries (db : SourceCatalog Payload Row) (slotGeneration ingressTxnId batchOrdinal : Nat) (sourceOid : Oid)
    (finalLsn : Lsn) : List (LogEntry Row) :=
  let consumers := ((sourceStream db.streams slotGeneration sourceOid).map EffectStream.consumers).getD []
  let tasks := (db.ingress.findTransaction ingressTxnId).toList.flatMap fun txn =>
    txn.publications.filter fun task => namesTask batchOrdinal sourceOid task && isPending task
  tasks.map fun task =>
    .discard slotGeneration sourceOid ingressTxnId (task.nextInputSeq.getD 0) task.lastInputSeq finalLsn consumers

def chunkEntries (after : SourceCatalog Payload Row) (slotGeneration : Nat) (sourceOid : Oid) (chunkSeq : Nat) :
    List (LogEntry Row) :=
  (sourceStream after.streams slotGeneration sourceOid).toList.flatMap fun stream =>
    (stream.chunks.filter fun chunk => chunk.chunkSeq = chunkSeq).map
      (.chunk slotGeneration sourceOid stream.streamId)

def publicationEntries (db after : SourceCatalog Payload Row) (slotGeneration : Nat) (publication : SourcePublication) :
    List (LogEntry Row) :=
  match publication.ingressTxnId, publication.batchOrdinal, publication.sourceOid, publication.finalLsn with
  | some ingressTxnId, some batchOrdinal, some sourceOid, some finalLsn =>
      match publication.outcome, publication.chunkSeq with
      | .discarded, _ => discardEntries db slotGeneration ingressTxnId batchOrdinal sourceOid finalLsn
      | _, some chunkSeq => chunkEntries after slotGeneration sourceOid chunkSeq
      | _, none => []
  | _, _, _, _ => []

def loggedStep [DecidableEq Payload] (codec : PayloadCodec Payload) (rowCodec : RowCodec Payload Row)
    (state : LoggedCatalog Payload Row) : Call Payload → Except Fault (LoggedCatalog Payload Row)
  | .publish slotGeneration =>
      (publishSourceBatch rowCodec state.catalog slotGeneration).map fun result =>
        ⟨result.1, state.log ++ publicationEntries state.catalog result.1 slotGeneration result.2⟩
  | call => (step codec rowCodec state.catalog call).map fun after => ⟨after, state.log⟩

def emptyLog : LoggedCatalog Payload Row := ⟨emptyCatalog, []⟩

-- The log is only an observer: forgetting it gives back the step.
theorem logged_step_catalog [DecidableEq Payload] (codec : PayloadCodec Payload) (rowCodec : RowCodec Payload Row)
    (state : LoggedCatalog Payload Row) (call : Call Payload) :
    (loggedStep codec rowCodec state call).map LoggedCatalog.catalog = step codec rowCodec state.catalog call := by
  cases call with
  | ingress call =>
      simp only [loggedStep]
      cases step codec rowCodec state.catalog (.ingress call) <;> rfl
  | publish slotGeneration =>
      simp only [loggedStep, step]
      cases publishSourceBatch rowCodec state.catalog slotGeneration <;> rfl
  | stream call =>
      simp only [loggedStep]
      cases step codec rowCodec state.catalog (.stream call) <;> rfl

def loggedChunk (slotGeneration : Nat) (sourceOid : Oid) : LogEntry Row → Option (Nat × EffectChunk Row)
  | .chunk generation source streamId stored =>
      if generation = slotGeneration ∧ source = sourceOid then some (streamId, stored) else none
  | .discard _ _ _ _ _ _ _ => none

-- The data chunks of one source in the order they were appended.
def loggedChunks (log : List (LogEntry Row)) (slotGeneration : Nat) (sourceOid : Oid) : List (Nat × EffectChunk Row) :=
  log.filterMap (loggedChunk slotGeneration sourceOid)

def loggedRows (log : List (LogEntry Row)) (slotGeneration : Nat) (sourceOid : Oid) : List (Nat × EffectRow Row) :=
  (loggedChunks log slotGeneration sourceOid).flatMap fun chunk => chunk.2.payload.map fun row => (chunk.1, row)

def Discarded (log : List (LogEntry Row)) (slotGeneration : Nat) (sourceOid : Oid) (ingressTxnId inputSeq : Nat) : Prop :=
  ∃ first last final consumers, LogEntry.discard slotGeneration sourceOid ingressTxnId first last final consumers ∈ log ∧
    first ≤ inputSeq ∧ inputSeq ≤ last

-- An event with the commit LSN of its transaction.
abbrev SourceEvent (Payload : Type) := Lsn × ChangeRow Payload

def EventBefore (a b : SourceEvent Payload) : Prop := a.1 < b.1 ∨ (a.1 = b.1 ∧ a.2.inputSeq < b.2.inputSeq)

-- The event of a committed header, not undone with a subtransaction, that no
-- unfinished task has still to pass and no discard dropped.
def PublishedEvent (state : LoggedCatalog Payload Row) (slotGeneration : Nat) (sourceOid : Oid)
    (event : SourceEvent Payload) : Prop :=
  ∃ txn ∈ state.catalog.ingress.transactions.rows, txn.slotGeneration = slotGeneration ∧ txn.status = .committed ∧
    txn.finalLsn = some event.1 ∧ event.2 ∈ txn.changeLog ∧ event.2.sourceOid = sourceOid ∧
    event.2.sourceSubxid ∉ txn.abortedSubtransactions ∧ ¬ Awaiting txn sourceOid event.2.inputSeq ∧
    ¬ Discarded state.log slotGeneration sourceOid txn.ingressTxnId event.2.inputSeq

structure SourcePublished (rowCodec : RowCodec Payload Row) (state : LoggedCatalog Payload Row) (slotGeneration : Nat)
    (sourceOid : Oid) (events : List (SourceEvent Payload)) : Prop where
  rows : List.Forall₂ (fun event row => TypedAs rowCodec row.1 event.2 row.2) events
    (loggedRows state.log slotGeneration sourceOid)
  ordered : events.Pairwise EventBefore
  exact : ∀ event, event ∈ events ↔ PublishedEvent state slotGeneration sourceOid event
  numbered : (loggedChunks state.log slotGeneration sourceOid).map (fun chunk => chunk.2.chunkSeq) =
    List.range' 1 (loggedChunks state.log slotGeneration sourceOid).length
  stored : ∀ stream, sourceStream state.catalog.streams slotGeneration sourceOid = some stream →
    stream.nextChunkSeq = (loggedChunks state.log slotGeneration sourceOid).length + 1 ∧
      (∀ chunk ∈ loggedChunks state.log slotGeneration sourceOid, chunk.1 = stream.streamId) ∧
      ∀ chunk ∈ stream.chunks, (stream.streamId, chunk) ∈ loggedChunks state.log slotGeneration sourceOid
  discards : ∀ ingressTxnId first last final consumers,
    LogEntry.discard slotGeneration sourceOid ingressTxnId first last final consumers ∈ state.log →
      (∃ txn ∈ state.catalog.ingress.transactions.rows, txn.ingressTxnId = ingressTxnId ∧ txn.status = .committed ∧
        txn.finalLsn = some final) ∧ ∀ consumer ∈ consumers, final ≤ consumer.activationLsn

-- Why the next append of the source keeps the order: everything published lies
-- before every cursor of its own header and at or below the stream's last LSN.
structure SourceInvariant (rowCodec : RowCodec Payload Row) (state : LoggedCatalog Payload Row) (slotGeneration : Nat)
    (sourceOid : Oid) (events : List (SourceEvent Payload)) : Prop
    extends SourcePublished rowCodec state slotGeneration sourceOid events where
  follows : ∀ txn ∈ state.catalog.ingress.transactions.rows, txn.status = .committed →
    ∀ task ∈ txn.publications, task.sourceOid = sourceOid → ∀ cursor, task.nextInputSeq = some cursor →
      (∀ event ∈ events, txn.finalLsn = some event.1 → event.2.inputSeq < cursor) ∧
      ∀ first last final consumers,
        LogEntry.discard slotGeneration sourceOid txn.ingressTxnId first last final consumers ∈ state.log → last < cursor
  reached : ∀ event ∈ events, ∃ stream latest,
    sourceStream state.catalog.streams slotGeneration sourceOid = some stream ∧
      stream.latestDataLsn = some latest ∧ event.1 ≤ latest
  unborn : sourceStream state.catalog.streams slotGeneration sourceOid = none →
    loggedChunks state.log slotGeneration sourceOid = []
  target : ∀ stream, sourceStream state.catalog.streams slotGeneration sourceOid = some stream →
    0 < stream.targetChunkRows

-- Everything but publication leaves what a stream has produced alone.
structure StreamKept (before after : EffectStream Row) : Prop where
  streamId : after.streamId = before.streamId
  nextChunkSeq : after.nextChunkSeq = before.nextChunkSeq
  latestDataLsn : after.latestDataLsn = before.latestDataLsn
  targetChunkRows : after.targetChunkRows = before.targetChunkRows
  chunks : ∀ chunk ∈ after.chunks, chunk ∈ before.chunks

structure StreamsKept (before after : Table (EffectStream Row) EffectStream.streamId) : Prop where
  kept : ∀ slotGeneration sourceOid stream, sourceStream before slotGeneration sourceOid = some stream →
    ∃ later, sourceStream after slotGeneration sourceOid = some later ∧ StreamKept stream later
  fresh : ∀ slotGeneration sourceOid later, sourceStream before slotGeneration sourceOid = none →
    sourceStream after slotGeneration sourceOid = some later →
    later.nextChunkSeq = 1 ∧ later.chunks = [] ∧ 0 < later.targetChunkRows

theorem stream_kept_refl (stream : EffectStream Row) : StreamKept stream stream :=
  ⟨rfl, rfl, rfl, rfl, fun _ member => member⟩

theorem streams_kept_refl (streams : Table (EffectStream Row) EffectStream.streamId) : StreamsKept streams streams :=
  ⟨fun _ _ stream found => ⟨stream, found, stream_kept_refl stream⟩, fun _ _ _ absent found => by simp [absent] at found⟩

theorem find_map_same {α : Type} (keep : α → Bool) (change : α → α) (items : List α)
    (same : ∀ item ∈ items, keep (change item) = keep item) :
    (items.map change).find? keep = (items.find? keep).map change := by
  induction items with
  | nil => rfl
  | cons item rest ih =>
      have tail := ih fun other member => same other (List.mem_cons_of_mem item member)
      have head := same item List.mem_cons_self
      cases hit : keep item with
      | true => simp [hit, head]
      | false => simp [hit, head, tail]

theorem source_stream_some (streams : Table (EffectStream Row) EffectStream.streamId) (slotGeneration : Nat)
    (sourceOid : Oid) (stream : EffectStream Row) (found : sourceStream streams slotGeneration sourceOid = some stream) :
    stream ∈ streams.rows ∧ stream.producer = .source slotGeneration sourceOid :=
  ⟨List.mem_of_find?_eq_some found, by simpa using List.find?_some found⟩

section

variable {streams : Table (EffectStream Row) EffectStream.streamId} {stream moved : EffectStream Row}
  (member : stream ∈ streams.rows) (producer : moved.producer = stream.producer)

include member producer

theorem source_stream_store (slotGeneration : Nat) (sourceOid : Oid) :
    sourceStream (storeStream streams stream.streamId moved) slotGeneration sourceOid =
      (sourceStream streams slotGeneration sourceOid).map fun row =>
        if row.streamId = stream.streamId then { moved with streamId := row.streamId } else row := by
  unfold sourceStream storeStream Table.update Table.updateWhere
  simp only [decide_eq_true_eq]
  apply find_map_same
  intro row rowMember
  by_cases hit : row.streamId = stream.streamId
  · have same : row = stream := streams.row_unique row stream rowMember member hit
    simp [producer, same]
  · simp [hit]

theorem streams_kept_store (kept : StreamKept stream moved) :
    StreamsKept streams (storeStream streams stream.streamId moved) := by
  constructor
  · intro slotGeneration sourceOid row found
    have rowMember := (source_stream_some streams slotGeneration sourceOid row found).1
    rw [source_stream_store member producer, found]
    by_cases hit : row.streamId = stream.streamId
    · have same : row = stream := streams.row_unique row stream rowMember member hit
      subst same
      refine ⟨_, rfl, ?_⟩
      simp only [if_true]
      exact ⟨rfl, kept.nextChunkSeq, kept.latestDataLsn, kept.targetChunkRows, kept.chunks⟩
    · refine ⟨row, ?_, stream_kept_refl row⟩
      simp [hit]
  · intro slotGeneration sourceOid later absent found
    rw [source_stream_store member producer, absent] at found
    cases found

end

section

variable {db after : SourceCatalog Payload Row} {streamId : Nat}
  {change : EffectStream Row → Except Fault (EffectStream Row)}

theorem on_stream_kept (ok : onStream db streamId change = .ok after)
    (keeps : ∀ stream moved, change stream = .ok moved → moved.producer = stream.producer ∧ StreamKept stream moved) :
    StreamsKept db.streams after.streams := by
  obtain ⟨stream, moved, found, changed, rfl⟩ := on_stream_ok ok
  obtain ⟨member, named⟩ := db.streams.mem_of_find _ _ found
  obtain ⟨producer, kept⟩ := keeps stream moved changed
  rw [← named]
  exact streams_kept_store member producer kept

theorem ensure_source_kept {slotGeneration : Nat} {sourceOid : Oid} {targetRows targetBytes : Nat}
    (ok : ensureSourceStream db slotGeneration sourceOid targetRows targetBytes = .ok (after, streamId)) :
    StreamsKept db.streams after.streams := by
  unfold ensureSourceStream at ok
  split at ok
  · cases ok
  · rename_i limits made
    split at ok
    · cases ok
    · rename_i positive
      split at ok
      · cases ok
      · split at ok
        · simp only [Except.ok.injEq, Prod.mk.injEq] at ok
          rw [← ok.1]
          exact streams_kept_refl _
        · rename_i absent
          simp only [Except.ok.injEq, Prod.mk.injEq] at ok
          rw [← ok.1]
          constructor
          · intro generation source stream found
            refine ⟨stream, ?_, stream_kept_refl stream⟩
            unfold sourceStream at found ⊢
            simp [Table.insert, List.find?_append, found]
          · intro generation source later missing found
            unfold sourceStream at missing found
            rw [Table.insert, List.find?_append, missing, Option.none_or] at found
            have isFresh := List.mem_singleton.mp (List.mem_of_find?_eq_some found)
            have target : limits.targetChunkRows = targetRows := by
              unfold sourceLimits at made
              split at made
              · cases made
              · split at made
                · cases made
                · rw [← Except.ok.inj made]
            rw [isFresh]
            refine ⟨rfl, rfl, ?_⟩
            simp only [target]
            exact Nat.pos_of_ne_zero fun zero => positive (.inl zero)

theorem stream_step_kept {call : StreamCall} (ok : streamStep db call = .ok after) :
    StreamsKept db.streams after.streams := by
  cases call with
  | ensureSource slotGeneration sourceOid targetRows targetBytes =>
      obtain ⟨streamId, made⟩ := map_fst_ok ok
      exact ensure_source_kept made
  | attach streamId registered consumer activationLsn =>
      refine on_stream_kept ok ?_
      intro stream moved attached
      obtain ⟨_, _, rfl⟩ := attach_cases attached
      exact ⟨rfl, rfl, rfl, rfl, rfl, fun _ member => member⟩
  | advance streamId consumer move =>
      refine on_stream_kept ok ?_
      intro stream moved advanced
      obtain ⟨_, _, _, _, _, _, _, _, rfl⟩ := advance_cases advanced
      exact ⟨rfl, rfl, rfl, rfl, rfl, fun _ member => member⟩
  | dropResult resultOid =>
      cases ok
      have same : ∀ slotGeneration sourceOid,
          sourceStream (db.streams.updateWhere (fun _ => true) (dropResult resultOid) (fun _ => rfl)) slotGeneration sourceOid =
            (sourceStream db.streams slotGeneration sourceOid).map (dropResult resultOid) := by
        intro slotGeneration sourceOid
        unfold sourceStream Table.updateWhere
        simp only [if_true]
        exact find_map_same _ _ _ fun _ _ => rfl
      constructor
      · intro slotGeneration sourceOid stream found
        refine ⟨dropResult resultOid stream, ?_, rfl, rfl, rfl, rfl, fun _ member => member⟩
        rw [same, found]
        rfl
      · intro slotGeneration sourceOid later absent found
        rw [same, absent] at found
        cases found
  | collect streamId chunkLimit rowLimit byteLimit =>
      refine on_stream_kept ok ?_
      intro stream moved collected
      rcases gc_cases _ _ _ _ _ collected with ⟨_, rfl⟩ | ⟨slowest, _, rfl⟩
      · exact ⟨rfl, stream_kept_refl _⟩
      · exact ⟨rfl, rfl, rfl, rfl, rfl, fun _ member => List.mem_of_mem_filter member⟩

end

theorem committed_final (codec : PayloadCodec Payload) (db : IngressCatalog Payload) (accounts : Accounts codec db)
    (txn : IngressTransaction Payload) (member : txn ∈ db.transactions.rows) (committed : txn.status = .committed) :
    txn.finalLsn = txn.commitLsn := by
  have sealed := (accounts.headers txn member).sealed
  simp only [SealedConsistently, committed] at sealed
  obtain ⟨commit, _, isFinal, isCommit, _⟩ := sealed
  exact isFinal.trans isCommit.symm

section Invariant

variable (rowCodec : RowCodec Payload Row) (state : LoggedCatalog Payload Row) (slotGeneration : Nat) (sourceOid : Oid)
  (events : List (SourceEvent Payload))

theorem invariant_streams (streams : Table (EffectStream Row) EffectStream.streamId)
    (kept : StreamsKept state.catalog.streams streams)
    (good : SourceInvariant rowCodec state slotGeneration sourceOid events) :
    SourceInvariant rowCodec ⟨⟨state.catalog.ingress, streams⟩, state.log⟩ slotGeneration sourceOid events := by
  refine ⟨⟨good.rows, good.ordered, good.exact, good.numbered, ?_, good.discards⟩, good.follows, ?_, ?_, ?_⟩
  · intro later found
    cases before : sourceStream state.catalog.streams slotGeneration sourceOid with
    | none =>
        obtain ⟨next, empty, _⟩ := kept.fresh _ _ later before found
        simp only [good.unborn before, List.length_nil, next, empty, List.not_mem_nil, false_imp_iff, implies_true,
          and_self]
    | some stream =>
        obtain ⟨other, isOther, same⟩ := kept.kept _ _ stream before
        obtain rfl : other = later := Option.some.inj (isOther.symm.trans found)
        obtain ⟨next, ids, chunks⟩ := good.stored stream before
        refine ⟨same.nextChunkSeq.trans next, ?_, ?_⟩
        · intro chunk member
          exact (ids chunk member).trans same.streamId.symm
        · intro chunk member
          rw [same.streamId]
          exact chunks chunk (same.chunks chunk member)
  · intro event member
    obtain ⟨stream, latest, found, isLatest, within⟩ := good.reached event member
    obtain ⟨later, isLater, same⟩ := kept.kept _ _ stream found
    exact ⟨later, latest, isLater, same.latestDataLsn.trans isLatest, within⟩
  · intro absent
    cases before : sourceStream state.catalog.streams slotGeneration sourceOid with
    | none => exact good.unborn before
    | some stream =>
        obtain ⟨later, isLater, _⟩ := kept.kept _ _ stream before
        exact absurd (absent.symm.trans isLater) (by simp)
  · intro later found
    cases before : sourceStream state.catalog.streams slotGeneration sourceOid with
    | none => exact (kept.fresh _ _ later before found).2.2
    | some stream =>
        obtain ⟨other, isOther, same⟩ := kept.kept _ _ stream before
        obtain rfl : other = later := Option.some.inj (isOther.symm.trans found)
        exact same.targetChunkRows.symm ▸ good.target stream before

-- A call that only opens, fills and seals headers publishes nothing: a header
-- committed now still waits for all of its events.
theorem invariant_headers {codec : PayloadCodec Payload} (accounts : Accounts codec state.catalog.ingress)
    (facts : TaskFacts state.catalog.ingress) {ingress : IngressCatalog Payload}
    (steps : HeadersStep state.catalog.ingress ingress)
    (good : SourceInvariant rowCodec state slotGeneration sourceOid events) :
    SourceInvariant rowCodec ⟨⟨ingress, state.catalog.streams⟩, state.log⟩ slotGeneration sourceOid events := by
  have commits := committed_final codec state.catalog.ingress accounts
  refine ⟨⟨good.rows, good.ordered, ?_, good.numbered, good.stored, ?_⟩, ?_, good.reached, good.unborn, good.target⟩
  · intro event
    rw [good.exact]
    constructor
    · rintro ⟨txn, member, generation, committed, rest⟩
      exact ⟨txn, committed_stays _ _ steps txn member (by simp [committed]), generation, committed, rest⟩
    · rintro ⟨txn, member, generation, committed, final, logged, source, kept, passed, undiscarded⟩
      rcases committed_before steps member committed with old | ⟨before, old, opened, commitLsn, endLsn, rfl, _⟩
      · exact ⟨txn, old, generation, committed, final, logged, source, kept, passed, undiscarded⟩
      · exact absurd (source ▸ (facts.headers before old).covered opened event.2 logged) passed
  · intro ingressTxnId first last final consumers member
    obtain ⟨⟨txn, old, named, committed, isFinal⟩, unwatched⟩ := good.discards _ _ _ _ _ member
    exact ⟨⟨txn, committed_stays _ _ steps txn old (by simp [committed]), named, committed, isFinal⟩, unwatched⟩
  · intro txn member committed task taskMember source cursor starts
    rcases committed_before steps member committed with old | ⟨before, old, opened, commitLsn, endLsn, rfl, fresh⟩
    · exact good.follows txn old committed task taskMember source cursor starts
    · constructor
      · intro event eventMember sameFinal
        obtain ⟨other, otherMember, _, otherCommitted, otherFinal, _⟩ := (good.exact event).mp eventMember
        have clash : other.commitLsn = some commitLsn :=
          (commits other otherMember otherCommitted).symm.trans (otherFinal.trans sameFinal.symm)
        exact absurd clash (fresh other otherMember otherCommitted)
      · intro first last final consumers entry
        obtain ⟨⟨other, otherMember, named, otherCommitted, _⟩, _⟩ := good.discards _ _ _ _ _ entry
        have same := state.catalog.ingress.transactions.row_unique other before otherMember old named
        rw [same, opened] at otherCommitted
        cases otherCommitted

end Invariant

end Shiba.Publication
