import Shiba.Publication.Cursor

set_option autoImplicit false

namespace Shiba.Publication

open SerialTable Transition Shiba.Ingress Shiba.Stream

variable {Payload Row : Type}

theorem logged_chunks_append (log new : List (LogEntry Row)) (slotGeneration : Nat) (sourceOid : Oid) :
    loggedChunks (log ++ new) slotGeneration sourceOid =
      loggedChunks log slotGeneration sourceOid ++ loggedChunks new slotGeneration sourceOid :=
  List.filterMap_append

theorem logged_rows_append (log new : List (LogEntry Row)) (slotGeneration : Nat) (sourceOid : Oid) :
    loggedRows (log ++ new) slotGeneration sourceOid =
      loggedRows log slotGeneration sourceOid ++ loggedRows new slotGeneration sourceOid := by
  simp only [loggedRows, logged_chunks_append, List.flatMap_append]

-- Everything one publication can log about the task it locked: a discard drops
-- the rest of the task, and only while no consumer is active below the commit.
inductive TaskEntry (slotGeneration : Nat) (txn : IngressTransaction Payload) (task : Task) (next : Option Nat) :
    LogEntry Row → Prop where
  | chunk (streamId : Nat) (stored : EffectChunk Row) :
      TaskEntry slotGeneration txn task next (.chunk slotGeneration task.sourceOid streamId stored)
  | discard (consumers : List StreamConsumer) (finished : next = none)
      (unwatched : ∀ consumer ∈ consumers, task.finalLsn ≤ consumer.activationLsn) :
      TaskEntry slotGeneration txn task next (.discard slotGeneration task.sourceOid txn.ingressTxnId task.nextInputSeq
        task.lastInputSeq task.finalLsn consumers)

section Moved

variable {rowCodec : RowCodec Payload Row} {state : LoggedCatalog Payload Row} {slotGeneration : Nat}
  {txn : IngressTransaction Payload} {task : Task} (row : PublicationTask)
  (locked : LockedTask state.catalog.ingress slotGeneration txn task row) (codec : PayloadCodec Payload)
  (accounts : Accounts codec state.catalog.ingress) (facts : TaskFacts state.catalog.ingress) (finished : Bool)
  {next : Option Nat} (onward : ∀ seq, next = some seq → task.nextInputSeq ≤ seq ∧ seq ≤ task.lastInputSeq)
  (streams : Table (EffectStream Row) EffectStream.streamId) {new : List (LogEntry Row)}

include locked in
theorem task_facts_moved (facts : TaskFacts state.catalog.ingress)
    (onward : ∀ seq, next = some seq → task.nextInputSeq ≤ seq ∧ seq ≤ task.lastInputSeq) :
    TaskFacts (advancedState state txn task finished next streams new).catalog.ingress := by
  have txnMember := (state.catalog.ingress.transactions.mem_of_find _ _ locked.found).1
  have old : ∀ header ∈ (advancedState state txn task finished next streams new).catalog.ingress.transactions.rows,
      ∃ before ∈ state.catalog.ingress.transactions.rows, header.ingressTxnId = before.ingressTxnId ∧
        header.status = before.status ∧ header.commitLsn = before.commitLsn := by
    intro header member
    rcases (advanced_header_mem locked finished next streams new header).mp member with
      ⟨stays, _⟩ | rfl
    · exact ⟨header, stays, rfl, rfl, rfl⟩
    · exact ⟨txn, txnMember, rfl, rfl, rfl⟩
  constructor
  · intro header member
    rcases (advanced_header_mem locked finished next streams new header).mp member with
      ⟨stays, _⟩ | rfl
    · exact facts.headers header stays
    · constructor
      · intro moved movedMember cursor starts
        rcases (advanced_tasks_mem locked finished next moved).mp movedMember with
          ⟨other, _⟩ | rfl
        · exact (facts.headers txn txnMember).cursors moved other cursor starts
        · obtain ⟨low, high⟩ := onward cursor starts
          have started := (facts.headers txn txnMember).cursors row locked.member _ locked.waiting
          exact ⟨Nat.le_trans started.1 low, locked.last ▸ high⟩
      · intro opened
        exact absurd (locked.committed.symm.trans opened) (by simp)
  · intro a aMember b bMember aCommitted bCommitted same
    obtain ⟨aBefore, aOld, aId, aStatus, aCommit⟩ := old a aMember
    obtain ⟨bBefore, bOld, bId, bStatus, bCommit⟩ := old b bMember
    have equal := facts.unique aBefore aOld bBefore bOld (aStatus.symm.trans aCommitted) (bStatus.symm.trans bCommitted)
      (aCommit.symm.trans (same.trans bCommit))
    exact Table.row_unique _ a b aMember bMember (aId.trans ((congrArg _ equal).trans bId.symm))

variable (entries : ∀ entry ∈ new, TaskEntry slotGeneration txn task next entry)

include entries in
theorem discard_entry_cases {generation : Nat} {source : Oid} {ingressTxnId first last : Nat} {final : Lsn}
    {consumers : List StreamConsumer}
    (member : LogEntry.discard generation source ingressTxnId first last final consumers ∈ state.log ++ new) :
    LogEntry.discard generation source ingressTxnId first last final consumers ∈ state.log ∨
      (next = none ∧ generation = slotGeneration ∧ source = task.sourceOid ∧ ingressTxnId = txn.ingressTxnId ∧
        first = task.nextInputSeq ∧ last = task.lastInputSeq ∧ final = task.finalLsn ∧
        ∀ consumer ∈ consumers, task.finalLsn ≤ consumer.activationLsn) := by
  rcases List.mem_append.mp member with old | fresh
  · exact .inl old
  · cases entries _ fresh with
    | discard _ finished unwatched => exact .inr ⟨finished, rfl, rfl, rfl, rfl, rfl, rfl, unwatched⟩

theorem discarded_grows {generation : Nat} {source : Oid} {ingressTxnId inputSeq : Nat}
    (before : Discarded state.log generation source ingressTxnId inputSeq) :
    Discarded (state.log ++ new) generation source ingressTxnId inputSeq := by
  obtain ⟨first, last, final, consumers, member, within⟩ := before
  exact ⟨first, last, final, consumers, List.mem_append_left _ member, within⟩

variable {generation : Nat} {source : Oid} {events : List (SourceEvent Payload)}
  (good : SourceInvariant rowCodec state generation source events)

include locked entries good

theorem moved_discards (ingressTxnId first last : Nat) (final : Lsn) (consumers : List StreamConsumer)
    (member : LogEntry.discard generation source ingressTxnId first last final consumers ∈ state.log ++ new) :
    (∃ header ∈ (advancedState state txn task finished next streams (state.log ++ new)).catalog.ingress.transactions.rows,
      header.ingressTxnId = ingressTxnId ∧ header.status = .committed ∧ header.finalLsn = some final) ∧
      ∀ consumer ∈ consumers, final ≤ consumer.activationLsn := by
  have now := (advanced_header_mem locked finished next streams (state.log ++ new)
    (advanceHeader task finished next txn)).mpr (.inr rfl)
  have txnMember := (state.catalog.ingress.transactions.mem_of_find _ _ locked.found).1
  rcases discard_entry_cases entries member with
    old | ⟨_, _, _, rfl, _, _, rfl, unwatched⟩
  · obtain ⟨⟨header, headerMember, named, committed, isFinal⟩, unwatched⟩ := good.discards _ _ _ _ _ old
    refine ⟨?_, unwatched⟩
    by_cases hit : header.ingressTxnId = txn.ingressTxnId
    · have same := state.catalog.ingress.transactions.row_unique header txn headerMember txnMember hit
      subst same
      exact ⟨_, now, named, committed, isFinal⟩
    · exact ⟨header, (advanced_header_mem locked finished next streams _ header).mpr
        (.inl ⟨headerMember, hit⟩), named, committed, isFinal⟩
  · exact ⟨⟨_, now, rfl, locked.committed, locked.final⟩, unwatched⟩

include accounts facts onward

theorem moved_follows (published : List (SourceEvent Payload))
    (extra : ∀ event ∈ published, event ∈ events ∨ (source = task.sourceOid ∧ event.1 = task.finalLsn ∧
      event.2.inputSeq ≤ task.lastInputSeq ∧ ∀ seq, next = some seq → event.2.inputSeq < seq)) :
    ∀ header ∈ (advancedState state txn task finished next streams (state.log ++ new)).catalog.ingress.transactions.rows,
      header.status = .committed → ∀ moved ∈ header.publications, moved.sourceOid = source →
        ∀ cursor, moved.nextInputSeq = some cursor →
          (∀ event ∈ published, header.finalLsn = some event.1 → event.2.inputSeq < cursor) ∧
          ∀ first last final consumers,
            LogEntry.discard generation source header.ingressTxnId first last final consumers ∈ state.log ++ new →
              last < cursor := by
  have txnMember := (state.catalog.ingress.transactions.mem_of_find _ _ locked.found).1
  intro header member committed moved movedMember sameSource cursor starts
  rcases (advanced_header_mem locked finished next streams _ header).mp member with
    ⟨old, different⟩ | rfl
  · -- Another header has another commit LSN and another id.
    obtain ⟨later, beyond⟩ := good.follows header old committed moved movedMember sameSource cursor starts
    constructor
    · intro event eventMember isFinal
      rcases extra event eventMember with before | ⟨_, final, _⟩
      · exact later event before isFinal
      · have sameFinal : header.finalLsn = txn.finalLsn := isFinal.trans ((congrArg some final).trans locked.final.symm)
        rw [committed_final codec _ accounts header old committed,
          committed_final codec _ accounts txn txnMember locked.committed] at sameFinal
        have same := facts.unique header old txn txnMember committed locked.committed sameFinal
        exact absurd (congrArg _ same) different
    · intro first last final consumers entry
      rcases discard_entry_cases entries entry with
        before | ⟨_, _, _, named, _⟩
      · exact beyond first last final consumers before
      · exact absurd named different
  · rcases (advanced_tasks_mem locked finished next moved).mp movedMember with
      ⟨other, different⟩ | rfl
    · obtain ⟨later, beyond⟩ := good.follows txn txnMember committed moved other sameSource cursor starts
      have afterTask : source = task.sourceOid → task.lastInputSeq < cursor := fun isSource =>
        others_later locked accounts facts other different (sameSource.trans isSource) starts
      constructor
      · intro event eventMember isFinal
        rcases extra event eventMember with before | ⟨isSource, _, within, _⟩
        · exact later event before isFinal
        · exact Nat.lt_of_le_of_lt within (afterTask isSource)
      · intro first last final consumers entry
        rcases discard_entry_cases entries entry with
          before | ⟨_, _, isSource, _, _, isLast, _⟩
        · exact beyond first last final consumers before
        · exact isLast ▸ afterTask isSource
    · obtain ⟨later, beyond⟩ := good.follows txn txnMember committed row locked.member sameSource _ locked.waiting
      have rises := (onward cursor starts).1
      constructor
      · intro event eventMember isFinal
        rcases extra event eventMember with before | ⟨_, _, _, below⟩
        · exact Nat.lt_of_lt_of_le (later event before isFinal) rises
        · exact below cursor starts
      · intro first last final consumers entry
        rcases discard_entry_cases entries entry with
          before | ⟨finished, _⟩
        · exact Nat.lt_of_lt_of_le (beyond first last final consumers before) rises
        · exact absurd (starts.symm.trans finished) (by simp)

-- A publication that adds no chunk to a source and passes none of its live
-- events leaves what the source has published as it is.
theorem invariant_still (sameStream : sourceStream streams generation source = sourceStream state.catalog.streams generation source)
    (noChunks : loggedChunks new generation source = [])
    (sameEvents : ∀ event, PublishedEvent (advancedState state txn task finished next streams (state.log ++ new)) generation
      source event ↔ PublishedEvent state generation source event) :
    SourceInvariant rowCodec (advancedState state txn task finished next streams (state.log ++ new)) generation source
      events := by
  have sameChunks : loggedChunks (state.log ++ new) generation source = loggedChunks state.log generation source := by
    rw [logged_chunks_append, noChunks, List.append_nil]
  have sameRows : loggedRows (state.log ++ new) generation source = loggedRows state.log generation source := by
    rw [loggedRows, sameChunks, loggedRows]
  refine ⟨⟨?_, good.ordered, ?_, ?_, ?_, ?_⟩, ?_, ?_, ?_, ?_⟩
  · exact sameRows ▸ good.rows
  · intro event
    exact (good.exact event).trans (sameEvents event).symm
  · exact sameChunks ▸ good.numbered
  · intro stream found
    have before := good.stored stream (sameStream ▸ found)
    exact sameChunks.symm ▸ before
  · exact moved_discards row locked finished streams entries good
  · exact moved_follows row locked codec accounts facts finished onward streams
      entries good events fun _ member => .inl member
  · intro event member
    obtain ⟨stream, latest, found, rest⟩ := good.reached event member
    exact ⟨stream, latest, sameStream.trans found, rest⟩
  · intro absent
    exact sameChunks.trans (good.unborn (sameStream ▸ absent))
  · intro stream found
    exact good.target stream (sameStream ▸ found)

end Moved

section Events

variable (state : LoggedCatalog Payload Row) {slotGeneration : Nat} (txn : IngressTransaction Payload) (task : Task)
  (row : PublicationTask) (locked : LockedTask state.catalog.ingress slotGeneration txn task row) (finished : Bool)
  (streams : Table (EffectStream Row) EffectStream.streamId)

theorem published_event_congr (log other : List (LogEntry Row)) (catalog : SourceCatalog Payload Row) (generation : Nat)
    (source : Oid) (event : SourceEvent Payload)
    (same : ∀ ingressTxnId, Discarded log generation source ingressTxnId event.2.inputSeq ↔
      Discarded other generation source ingressTxnId event.2.inputSeq) :
    PublishedEvent ⟨catalog, log⟩ generation source event ↔ PublishedEvent ⟨catalog, other⟩ generation source event := by
  simp only [PublishedEvent, same]

theorem discarded_elsewhere {next : Option Nat} {new : List (LogEntry Row)}
    (entries : ∀ entry ∈ new, TaskEntry slotGeneration txn task next entry) {generation : Nat} {source : Oid}
    (elsewhere : generation ≠ slotGeneration ∨ source ≠ task.sourceOid) (ingressTxnId inputSeq : Nat) :
    Discarded (state.log ++ new) generation source ingressTxnId inputSeq ↔
      Discarded state.log generation source ingressTxnId inputSeq := by
  constructor
  · rintro ⟨first, last, final, consumers, member, within⟩
    rcases discard_entry_cases entries member with
      old | ⟨_, rfl, rfl, _⟩
    · exact ⟨first, last, final, consumers, old, within⟩
    · simp at elsewhere
  · exact discarded_grows

include locked

theorem events_elsewhere {next : Option Nat} {new : List (LogEntry Row)}
    (entries : ∀ entry ∈ new, TaskEntry slotGeneration txn task next entry) {generation : Nat} {source : Oid}
    (elsewhere : generation ≠ slotGeneration ∨ source ≠ task.sourceOid) (event : SourceEvent Payload) :
    PublishedEvent (advancedState state txn task finished next streams (state.log ++ new)) generation source event ↔
      PublishedEvent state generation source event :=
  (published_event_elsewhere locked finished next streams _ generation source elsewhere
    event).trans (published_event_congr _ _ _ _ _ _ fun ingressTxnId =>
      discarded_elsewhere state txn task entries elsewhere ingressTxnId _)

variable (codec : PayloadCodec Payload) (accounts : Accounts codec state.catalog.ingress)
  (facts : TaskFacts state.catalog.ingress)

include accounts facts

-- The rest of the task goes unpublished, and none of it was published before.
theorem events_discarded (consumers : List StreamConsumer) (event : SourceEvent Payload) :
    PublishedEvent (advancedState state txn task finished none streams (state.log ++ [.discard slotGeneration task.sourceOid
        txn.ingressTxnId task.nextInputSeq task.lastInputSeq task.finalLsn consumers])) slotGeneration task.sourceOid event ↔
      PublishedEvent state slotGeneration task.sourceOid event := by
  have txnMember := (state.catalog.ingress.transactions.mem_of_find _ _ locked.found).1
  rw [published_event_moved locked finished none streams _ codec accounts facts (fun _ wrong => by cases wrong)]
  constructor
  · rintro (⟨header, member, generation, committed, final, logged, source, kept, passed, undiscarded⟩ |
      ⟨_, live, _, undiscarded⟩)
    · exact ⟨header, member, generation, committed, final, logged, source, kept, passed,
        fun before => undiscarded (discarded_grows before)⟩
    · obtain ⟨_, _, low, high, _⟩ := (source_events_mem _ _ _ _ _).mp live
      exact absurd ⟨_, _, _, _, List.mem_append_right _ (List.mem_singleton.mpr rfl), low, high⟩ undiscarded
  · rintro ⟨header, member, generation, committed, final, logged, source, kept, passed, undiscarded⟩
    refine .inl ⟨header, member, generation, committed, final, logged, source, kept, passed, ?_⟩
    rintro ⟨first, last, lsn, others, entry, low, high⟩
    rcases List.mem_append.mp entry with old | fresh
    · exact undiscarded ⟨first, last, lsn, others, old, low, high⟩
    · simp only [List.mem_singleton, LogEntry.discard.injEq] at fresh
      obtain ⟨_, _, named, rfl, rfl, _⟩ := fresh
      have same := state.catalog.ingress.transactions.row_unique header txn member txnMember named
      subst same
      exact passed ⟨row, locked.member, locked.source, _, locked.waiting, low, locked.last ▸ high⟩

-- An append publishes its chosen prefix; with nothing live it publishes nothing.
theorem events_chosen (next : Option Nat) (new : List (LogEntry Row)) (chosen : List (ChangeRow Payload))
    (onward : ∀ seq, next = some seq → task.nextInputSeq ≤ seq)
    (undiscarded : ∀ event ∈ chosen, ¬ Discarded state.log slotGeneration task.sourceOid txn.ingressTxnId event.inputSeq)
    (same : ∀ ingressTxnId inputSeq, Discarded (state.log ++ new) slotGeneration task.sourceOid ingressTxnId inputSeq ↔
      Discarded state.log slotGeneration task.sourceOid ingressTxnId inputSeq)
    (taken : ∀ event, event ∈ chosen ↔ event ∈ sourceEvents txn task.sourceOid task.nextInputSeq task.lastInputSeq ∧
      ∀ seq, next = some seq → event.inputSeq < seq) (event : SourceEvent Payload) :
    PublishedEvent (advancedState state txn task finished next streams (state.log ++ new)) slotGeneration task.sourceOid
        event ↔
      PublishedEvent state slotGeneration task.sourceOid event ∨ (event.1 = task.finalLsn ∧ event.2 ∈ chosen) := by
  rw [published_event_moved locked finished next streams _ codec accounts facts onward]
  refine or_congr (published_event_congr _ _ _ _ _ _ fun ingressTxnId => same ingressTxnId _) ?_
  rw [same, taken]
  constructor
  · rintro ⟨final, live, below, _⟩
    exact ⟨final, live, below⟩
  · rintro ⟨final, live, below⟩
    exact ⟨final, live, below, undiscarded event.2 ((taken event.2).mpr ⟨live, below⟩)⟩

end Events

theorem prefix_taken_mem (txn : IngressTransaction Payload) (task : Task) (chosen : List (ChangeRow Payload))
    (next : Option Nat) (taken : PrefixTaken txn task chosen next) (event : ChangeRow Payload) :
    event ∈ chosen ↔ event ∈ sourceEvents txn task.sourceOid task.nextInputSeq task.lastInputSeq ∧
      ∀ seq, next = some seq → event.inputSeq < seq := by
  constructor
  · intro member
    exact ⟨taken.live event member, fun seq isNext => (taken.cursor seq isNext).2.2 event member⟩
  · rintro ⟨live, below⟩
    by_contra left
    obtain ⟨cursor, isNext, reached⟩ := taken.rest event live left
    exact absurd (below cursor isNext) (Nat.not_lt.mpr reached)

def publishedChunk (stream : EffectStream Row) (rows : List (EffectRow Row)) (bytes : Nat) (finalLsn : Lsn) :
    EffectChunk Row :=
  ⟨stream.nextChunkSeq, .data, rows.length, bytes, finalLsn, rows⟩

-- The stream an append leaves behind.
structure StoredOnce (before after : Table (EffectStream Row) EffectStream.streamId) (slotGeneration : Nat) (sourceOid : Oid)
    (stream : EffectStream Row) (rows : List (EffectRow Row)) (bytes : Nat) (finalLsn : Lsn) : Prop where
  was : sourceStream before slotGeneration sourceOid = some stream
  now : sourceStream after slotGeneration sourceOid =
    some (storeChunk stream .data rows.length bytes finalLsn rows)
  others : ∀ generation source, generation ≠ slotGeneration ∨ source ≠ sourceOid →
    sourceStream after generation source = sourceStream before generation source

theorem source_stream_moved (streams : Table (EffectStream Row) EffectStream.streamId) (slotGeneration : Nat)
    (sourceOid : Oid) (stream moved : EffectStream Row) (found : sourceStream streams slotGeneration sourceOid = some stream)
    (producer : moved.producer = stream.producer) (sameId : moved.streamId = stream.streamId) :
    sourceStream (storeStream streams stream.streamId moved) slotGeneration sourceOid = some moved ∧
      ∀ generation source, generation ≠ slotGeneration ∨ source ≠ sourceOid →
        sourceStream (storeStream streams stream.streamId moved) generation source = sourceStream streams generation source := by
  obtain ⟨member, isSource⟩ := source_stream_some streams slotGeneration sourceOid stream found
  constructor
  · rw [source_stream_store member producer, found]
    simp only [Option.map_some, if_true, ← sameId]
  · intro generation source elsewhere
    rw [source_stream_store member producer]
    cases other : sourceStream streams generation source with
    | none => rfl
    | some row =>
        obtain ⟨rowMember, rowSource⟩ := source_stream_some streams generation source row other
        have different : row.streamId ≠ stream.streamId := by
          intro same
          have equal := streams.row_unique row stream rowMember member same
          rw [equal, isSource] at rowSource
          obtain ⟨rfl, rfl⟩ := Producer.source.inj rowSource
          simp at elsewhere
        simp [different]

theorem source_stream_same {streams : Table (EffectStream Row) EffectStream.streamId} {stream : EffectStream Row}
    (member : stream ∈ streams.rows) (generation : Nat) (source : Oid) :
    sourceStream (storeStream streams stream.streamId stream) generation source = sourceStream streams generation source := by
  rw [source_stream_store member rfl]
  cases found : sourceStream streams generation source with
  | none => rfl
  | some row =>
      by_cases hit : row.streamId = stream.streamId
      · have same := streams.row_unique row stream (source_stream_some streams generation source row found).1 member hit
        simp [same]
      · simp [hit]

theorem chunk_entries_appended (catalog : SourceCatalog Payload Row) (slotGeneration : Nat) (sourceOid : Oid)
    (stream : EffectStream Row) (rows : List (EffectRow Row)) (bytes : Nat) (finalLsn : Lsn)
    (now : sourceStream catalog.streams slotGeneration sourceOid = some (storeChunk stream .data rows.length bytes finalLsn rows))
    (earlier : ∀ chunk ∈ stream.chunks, chunk.chunkSeq < stream.nextChunkSeq) :
    chunkEntries catalog slotGeneration sourceOid stream.nextChunkSeq =
      [.chunk slotGeneration sourceOid stream.streamId (publishedChunk stream rows bytes finalLsn)] := by
  have old : stream.chunks.filter (fun chunk => chunk.chunkSeq = stream.nextChunkSeq) = [] := by
    rw [List.filter_eq_nil_iff]
    intro chunk member
    simpa using Nat.ne_of_lt (earlier chunk member)
  simp [chunkEntries, now, storeChunk, publishedChunk, old]

theorem discard_entries_locked {db : SourceCatalog Payload Row} {slotGeneration : Nat} {txn : IngressTransaction Payload}
    {task : Task} {row : PublicationTask} (locked : LockedTask db.ingress slotGeneration txn task row) :
    discardEntries db slotGeneration task.ingressTxnId task.batchOrdinal task.sourceOid task.finalLsn =
      [.discard slotGeneration task.sourceOid txn.ingressTxnId task.nextInputSeq task.lastInputSeq task.finalLsn
        (((sourceStream db.streams slotGeneration task.sourceOid).map EffectStream.consumers).getD [])] := by
  simp [discardEntries, locked.named, locked.found, locked.only, locked.waiting, locked.last]

section Appended

variable (rowCodec : RowCodec Payload Row) (state : LoggedCatalog Payload Row) {slotGeneration : Nat}
  (txn : IngressTransaction Payload) (task : Task) (row : PublicationTask)
  (locked : LockedTask state.catalog.ingress slotGeneration txn task row) (codec : PayloadCodec Payload)
  (accounts : Accounts codec state.catalog.ingress) (facts : TaskFacts state.catalog.ingress) (finished : Bool)
  (streams : Table (EffectStream Row) EffectStream.streamId) (events : List (SourceEvent Payload))
  (good : SourceInvariant rowCodec state slotGeneration task.sourceOid events) (stream : EffectStream Row)
  (published : Option Lsn) (chosen : List (ChangeRow Payload)) (rows : List (EffectRow Row)) (bytes : Nat)
  (next : Option Nat)

include locked good

-- Nothing the task still has to pass was discarded or published before.
theorem task_behind (finalOf : SourceEvent Payload) (member : finalOf ∈ events) (final : finalOf.1 = task.finalLsn) :
    finalOf.2.inputSeq < task.nextInputSeq := by
  have txnMember := (state.catalog.ingress.transactions.mem_of_find _ _ locked.found).1
  exact (good.follows txn txnMember locked.committed row locked.member locked.source _ locked.waiting).1 finalOf member
    (locked.final.trans (congrArg some final.symm))

theorem task_undiscarded (event : ChangeRow Payload) (ahead : task.nextInputSeq ≤ event.inputSeq) :
    ¬ Discarded state.log slotGeneration task.sourceOid txn.ingressTxnId event.inputSeq := by
  have txnMember := (state.catalog.ingress.transactions.mem_of_find _ _ locked.found).1
  rintro ⟨first, last, final, consumers, entry, _, within⟩
  have passed := (good.follows txn txnMember locked.committed row locked.member locked.source _ locked.waiting).2 first last
    final consumers entry
  omega

theorem appended_order (found : sourceStream state.catalog.streams slotGeneration task.sourceOid = some stream)
    (causal : causalFault stream published .data task.finalLsn = none) (taken : PrefixTaken txn task chosen next) :
    (events ++ chosen.map fun event => (task.finalLsn, event)).Pairwise EventBefore := by
  rw [List.pairwise_append]
  refine ⟨good.ordered, ?_, ?_⟩
  · rw [List.pairwise_map]
    exact taken.sorted.imp fun before => .inr ⟨rfl, before⟩
  · intro event member fresh freshMember
    obtain ⟨change, changeMember, rfl⟩ := List.mem_map.mp freshMember
    obtain ⟨_, _, ahead, _, _⟩ := (source_events_mem _ _ _ _ _).mp (taken.live change changeMember)
    obtain ⟨other, latest, isOther, isLatest, within⟩ := good.reached event member
    obtain rfl : other = stream := Option.some.inj (isOther.symm.trans found)
    have isSource := (source_stream_some _ _ _ _ found).2
    have follows : latest ≤ task.finalLsn := by
      simp only [causalFault, isSource, isLatest, behind_some] at causal
      split at causal
      · cases causal
      · split at causal
        · cases causal
        · rename_i monotone
          simpa using monotone
    rcases Nat.lt_or_ge event.1 task.finalLsn with below | reached
    · exact .inl below
    · have same : event.1 = task.finalLsn := Nat.le_antisymm (Nat.le_trans within follows) reached
      refine .inr ⟨same, ?_⟩
      exact Nat.lt_of_lt_of_le (task_behind rowCodec state txn task row locked events good event member same) ahead

include accounts facts

theorem invariant_appended (stored : StoredOnce state.catalog.streams streams slotGeneration task.sourceOid stream rows bytes
      task.finalLsn)
    (causal : causalFault stream published .data task.finalLsn = none)
    (typed : List.Forall₂ (TypedAs rowCodec stream.streamId) chosen rows) (taken : PrefixTaken txn task chosen next) :
    SourceInvariant rowCodec (advancedState state txn task finished next streams (state.log ++
        [.chunk slotGeneration task.sourceOid stream.streamId (publishedChunk stream rows bytes task.finalLsn)]))
      slotGeneration task.sourceOid (events ++ chosen.map fun event => (task.finalLsn, event)) := by
  obtain ⟨nextSeq, ids, kept⟩ := good.stored stream stored.was
  have newChunks : loggedChunks [LogEntry.chunk slotGeneration task.sourceOid stream.streamId
      (publishedChunk stream rows bytes task.finalLsn)] slotGeneration task.sourceOid =
      [(stream.streamId, publishedChunk stream rows bytes task.finalLsn)] := by
    simp [loggedChunks, loggedChunk]
  have entries : ∀ entry ∈ [LogEntry.chunk slotGeneration task.sourceOid stream.streamId
      (publishedChunk stream rows bytes task.finalLsn)], TaskEntry slotGeneration txn task next entry := by
    intro entry member
    rw [List.mem_singleton.mp member]
    exact .chunk _ _
  have onward : ∀ seq, next = some seq → task.nextInputSeq ≤ seq ∧ seq ≤ task.lastInputSeq := fun seq isNext =>
    ⟨Nat.le_of_lt (taken.cursor seq isNext).2.1, (taken.cursor seq isNext).1⟩
  have ahead : ∀ event ∈ chosen, task.nextInputSeq ≤ event.inputSeq ∧ event.inputSeq ≤ task.lastInputSeq := by
    intro event member
    obtain ⟨_, _, low, high, _⟩ := (source_events_mem _ _ _ _ _).mp (taken.live event member)
    exact ⟨low, high⟩
  refine ⟨⟨?_, ?_, ?_, ?_, ?_, ?_⟩, ?_, ?_, ?_, ?_⟩
  · rw [advanced_state_log, logged_rows_append]
    refine List.rel_append good.rows ?_
    rw [loggedRows, newChunks, List.flatMap_singleton, List.forall₂_map_left_iff, List.forall₂_map_right_iff]
    exact typed
  · exact appended_order rowCodec state txn task row locked events good stream published chosen next stored.was causal taken
  · intro event
    rw [events_chosen state txn task row locked finished streams codec accounts facts next _ chosen
      (fun seq isNext => (onward seq isNext).1)
      (fun event member => task_undiscarded rowCodec state txn task row locked events good event (ahead event member).1)
      (by simp [Discarded]) (prefix_taken_mem txn task chosen next taken) event, ← good.exact event, List.mem_append,
      List.mem_map]
    refine or_congr Iff.rfl ⟨?_, ?_⟩
    · rintro ⟨change, member, rfl⟩
      exact ⟨rfl, member⟩
    · rintro ⟨final, member⟩
      exact ⟨event.2, member, Prod.ext final.symm rfl⟩
  · rw [advanced_state_log, logged_chunks_append, newChunks, List.map_append, good.numbered, List.length_append]
    simp only [List.map_singleton, publishedChunk, nextSeq, List.length_singleton]
    exact range_append_one _
  · intro later found
    obtain rfl : _ = later := Option.some.inj (stored.now.symm.trans found)
    simp only [storeChunk, advanced_state_log, logged_chunks_append, newChunks, List.length_append, List.length_singleton, nextSeq]
    refine ⟨trivial, ?_, ?_⟩
    · intro chunk member
      rcases List.mem_append.mp member with old | fresh
      · exact ids chunk old
      · rw [List.mem_singleton.mp fresh]
    · intro chunk member
      rcases List.mem_append.mp member with old | fresh
      · exact List.mem_append_left _ (kept chunk old)
      · rw [List.mem_singleton.mp fresh]
        exact List.mem_append_right _ (by simp [publishedChunk, nextSeq])
  · exact moved_discards row locked finished streams entries good
  · refine moved_follows row locked codec accounts facts finished onward streams entries good _ ?_
    intro event member
    rcases List.mem_append.mp member with old | fresh
    · exact .inl old
    · obtain ⟨change, changeMember, rfl⟩ := List.mem_map.mp fresh
      exact .inr ⟨rfl, rfl, (ahead change changeMember).2, fun seq isNext =>
        (taken.cursor seq isNext).2.2 change changeMember⟩
  · intro event member
    refine ⟨_, greatestLsn stream.latestDataLsn task.finalLsn, stored.now, rfl, ?_⟩
    rcases List.mem_append.mp member with old | fresh
    · obtain ⟨other, latest, isOther, isLatest, within⟩ := good.reached event old
      obtain rfl : other = stream := Option.some.inj (isOther.symm.trans stored.was)
      rw [isLatest]
      exact Nat.le_trans within (Nat.le_max_left _ _)
    · obtain ⟨change, _, rfl⟩ := List.mem_map.mp fresh
      cases stream.latestDataLsn with
      | none => exact Nat.le_refl _
      | some latest => exact Nat.le_max_right _ _
  · intro absent
    exact absurd (stored.now.symm.trans absent) (by simp)
  · intro later found
    obtain rfl : _ = later := Option.some.inj (stored.now.symm.trans found)
    exact good.target stream stored.was

end Appended

-- What a run has published so far, for every source of every generation.
structure Published (codec : PayloadCodec Payload) (rowCodec : RowCodec Payload Row) (state : LoggedCatalog Payload Row) :
    Prop where
  accounts : Accounts codec state.catalog.ingress
  facts : TaskFacts state.catalog.ingress
  sources : ∀ slotGeneration sourceOid, ∃ events, SourceInvariant rowCodec state slotGeneration sourceOid events

theorem published_empty (codec : PayloadCodec Payload) (rowCodec : RowCodec Payload Row) :
    Published codec rowCodec (emptyLog : LoggedCatalog Payload Row) := by
  refine ⟨accounts_empty codec, ⟨?_, ?_⟩, ?_⟩
  · intro txn member
    simp [emptyLog, emptyCatalog, emptyIngress, Table.empty] at member
  · intro a member
    simp [emptyLog, emptyCatalog, emptyIngress, Table.empty] at member
  · intro slotGeneration sourceOid
    refine ⟨[], ⟨⟨.nil, .nil, ?_, rfl, ?_, ?_⟩, ?_, ?_, ?_, ?_⟩⟩
    · intro event
      simp [PublishedEvent, emptyLog, emptyCatalog, emptyIngress, Table.empty]
    · intro stream found
      simp [sourceStream, emptyLog, emptyCatalog, Table.empty] at found
    · intro ingressTxnId first last final consumers entry
      simp [emptyLog] at entry
    · intro txn member
      simp [emptyLog, emptyCatalog, emptyIngress, Table.empty] at member
    · intro event member
      cases member
    · intro _
      rfl
    · intro stream found
      simp [sourceStream, emptyLog, emptyCatalog, Table.empty] at found

theorem stored_earlier (rowCodec : RowCodec Payload Row) (state : LoggedCatalog Payload Row) (slotGeneration : Nat)
    (sourceOid : Oid) (events : List (SourceEvent Payload))
    (good : SourceInvariant rowCodec state slotGeneration sourceOid events) (stream : EffectStream Row)
    (found : sourceStream state.catalog.streams slotGeneration sourceOid = some stream) :
    ∀ chunk ∈ stream.chunks, chunk.chunkSeq < stream.nextChunkSeq := by
  obtain ⟨next, _, kept⟩ := good.stored stream found
  intro chunk member
  have inRange : chunk.chunkSeq ∈ List.range' 1 (loggedChunks state.log slotGeneration sourceOid).length := by
    rw [← good.numbered]
    exact List.mem_map.mpr ⟨_, kept chunk member, rfl⟩
  rw [List.mem_range'_1] at inRange
  omega

section Publish

variable (codec : PayloadCodec Payload) (rowCodec : RowCodec Payload Row) (state : LoggedCatalog Payload Row)
  (good : Published codec rowCodec state) {slotGeneration : Nat} (txn : IngressTransaction Payload) (task : Task)
  (row : PublicationTask) (locked : LockedTask state.catalog.ingress slotGeneration txn task row)

include good locked

variable (finished : Bool) (streams : Table (EffectStream Row) EffectStream.streamId)

section

variable
  (same : ∀ generation source, sourceStream streams generation source = sourceStream state.catalog.streams generation source)

include same

theorem published_discarded (consumers : List StreamConsumer)
    (unwatched : ∀ consumer ∈ consumers, task.finalLsn ≤ consumer.activationLsn)
    (after : Accounts codec (advancedState state txn task true none streams state.log).catalog.ingress) :
    Published codec rowCodec (advancedState state txn task true none streams (state.log ++
      [.discard slotGeneration task.sourceOid txn.ingressTxnId task.nextInputSeq task.lastInputSeq task.finalLsn consumers])) := by
  refine ⟨after, task_facts_moved row locked true streams good.facts (fun _ wrong => by cases wrong), ?_⟩
  intro generation source
  obtain ⟨events, invariant⟩ := good.sources generation source
  have entries : ∀ entry ∈ ([.discard slotGeneration task.sourceOid txn.ingressTxnId task.nextInputSeq
      task.lastInputSeq task.finalLsn consumers] : List (LogEntry Row)),
      TaskEntry slotGeneration txn task none entry := by
    intro entry member
    rw [List.mem_singleton.mp member]
    exact .discard _ rfl unwatched
  refine ⟨events, invariant_still row locked codec good.accounts good.facts true
    (fun _ wrong => by cases wrong) streams entries invariant (same generation source) rfl ?_⟩
  intro event
  by_cases here : generation = slotGeneration ∧ source = task.sourceOid
  · obtain ⟨rfl, rfl⟩ := here
    exact events_discarded state txn task row locked true streams codec good.accounts good.facts consumers event
  · exact events_elsewhere state txn task row locked true streams entries (not_and_or.mp here) event

theorem published_completed (nothing : sourceEvents txn task.sourceOid task.nextInputSeq task.lastInputSeq = [])
    (after : Accounts codec (advancedState state txn task finished none streams state.log).catalog.ingress) :
    Published codec rowCodec (advancedState state txn task finished none streams (state.log ++ [])) := by
  refine ⟨after, task_facts_moved row locked finished streams good.facts (fun _ wrong => by cases wrong), ?_⟩
  intro generation source
  obtain ⟨events, invariant⟩ := good.sources generation source
  have entries : ∀ entry ∈ ([] : List (LogEntry Row)), TaskEntry slotGeneration txn task none entry := by
    intro entry member
    cases member
  refine ⟨events, invariant_still row locked codec good.accounts good.facts finished (fun _ wrong => by cases wrong) streams entries invariant (same generation source) rfl ?_⟩
  intro event
  by_cases here : generation = slotGeneration ∧ source = task.sourceOid
  · obtain ⟨rfl, rfl⟩ := here
    rw [events_chosen state txn task row locked finished streams codec good.accounts good.facts none [] []
      (fun _ wrong => by cases wrong) (fun _ member => by cases member) (by simp) (by simp [nothing]) event]
    simp
  · exact events_elsewhere state txn task row locked finished streams entries (not_and_or.mp here) event

end

theorem published_appended (stream : EffectStream Row) (published : Option Lsn) (chosen : List (ChangeRow Payload))
    (rows : List (EffectRow Row)) (bytes : Nat) (next : Option Nat)
    (stored : StoredOnce state.catalog.streams streams slotGeneration task.sourceOid stream rows bytes task.finalLsn)
    (causal : causalFault stream published .data task.finalLsn = none)
    (typed : List.Forall₂ (TypedAs rowCodec stream.streamId) chosen rows) (taken : PrefixTaken txn task chosen next)
    (after : Accounts codec (advancedState state txn task finished next streams state.log).catalog.ingress) :
    Published codec rowCodec (advancedState state txn task finished next streams (state.log ++
      [.chunk slotGeneration task.sourceOid stream.streamId (publishedChunk stream rows bytes task.finalLsn)])) := by
  have onward : ∀ seq, next = some seq → task.nextInputSeq ≤ seq ∧ seq ≤ task.lastInputSeq := fun seq isNext =>
    ⟨Nat.le_of_lt (taken.cursor seq isNext).2.1, (taken.cursor seq isNext).1⟩
  refine ⟨after, task_facts_moved row locked finished streams good.facts onward, ?_⟩
  intro generation source
  obtain ⟨events, invariant⟩ := good.sources generation source
  by_cases here : generation = slotGeneration ∧ source = task.sourceOid
  · obtain ⟨rfl, rfl⟩ := here
    exact ⟨_, invariant_appended rowCodec state txn task row locked codec good.accounts good.facts finished streams events
      invariant stream published chosen rows bytes next stored causal typed taken⟩
  · have elsewhere := not_and_or.mp here
    have entries : ∀ entry ∈ [LogEntry.chunk slotGeneration task.sourceOid stream.streamId
        (publishedChunk stream rows bytes task.finalLsn)], TaskEntry slotGeneration txn task next entry := by
      intro entry member
      rw [List.mem_singleton.mp member]
      exact .chunk _ _
    refine ⟨events, invariant_still row locked codec good.accounts good.facts finished onward streams entries invariant (stored.others generation source elsewhere) ?_ ?_⟩
    · have different : ¬ (slotGeneration = generation ∧ task.sourceOid = source) := by
        rintro ⟨rfl, rfl⟩
        exact here ⟨rfl, rfl⟩
      simp [loggedChunks, loggedChunk, different]
    · exact events_elsewhere state txn task row locked finished streams entries
        elsewhere

end Publish

section Step

variable (codec : PayloadCodec Payload) (rowCodec : RowCodec Payload Row) (state : LoggedCatalog Payload Row)
  (good : Published codec rowCodec state)

include good

theorem published_streams (streams : Table (EffectStream Row) EffectStream.streamId)
    (kept : StreamsKept state.catalog.streams streams) :
    Published codec rowCodec ⟨⟨state.catalog.ingress, streams⟩, state.log⟩ := by
  refine ⟨good.accounts, good.facts, ?_⟩
  intro slotGeneration sourceOid
  obtain ⟨events, invariant⟩ := good.sources slotGeneration sourceOid
  exact ⟨events, invariant_streams rowCodec state slotGeneration sourceOid events streams kept invariant⟩

theorem published_batch {after : SourceCatalog Payload Row} {slotGeneration : Nat} {publication : SourcePublication}
    (ok : publishSourceBatch rowCodec state.catalog slotGeneration = .ok (after, publication)) :
    Published codec rowCodec ⟨after, state.log ++ publicationEntries state.catalog after slotGeneration publication⟩ := by
  have accounts := accounts_publish good.accounts ok
  obtain ⟨replay, active, ⟨_, rfl, noChunk, idle⟩ | ⟨candidate, txn, task, next, chosen, lock, published, ids, advanced⟩⟩ :=
    publish_source_batch_cases ok
  · have silent : publicationEntries state.catalog state.catalog slotGeneration publication = [] := by
      rcases idle with isIdle | isBlocked
      · simp only [publicationEntries, noChunk, isIdle]
        split <;> rfl
      · simp only [publicationEntries, noChunk, isBlocked]
        split <;> rfl
    rw [silent, List.append_nil]
    exact good
  · obtain ⟨row, locked⟩ := locked_task_of chosen lock
    obtain ⟨isTxn, isBatch, isSource, isFinal⟩ := ids
    have isGeneration := (state.catalog.ingress.active_replay_some _ _ active).2.1
    have txnMember := (state.catalog.ingress.transactions.mem_of_find _ _ locked.found).1
    have dropped := discard_entries_locked locked
    obtain ⟨ingress, streams⟩ := after
    simp only at advanced published accounts
    have moved : moves publication.outcome = true → ingress = state.catalog.ingress.updateTransaction txn.ingressTxnId
        (advanceHeader task (finishes publication.outcome) next) (fun _ => rfl) := by
      intro moving
      rw [if_pos moving] at advanced
      exact (advance_task_cases advanced).2.2.2
    have still : moves publication.outcome = false → ingress = state.catalog.ingress := by
      intro resting
      rw [if_neg (by simp [resting])] at advanced
      exact (Except.ok.inj advanced).symm
    simp only [publicationEntries, isTxn, isBatch, isSource, isFinal]
    rcases publish_task_cases published with ⟨outcome, noChunk, rfl, rfl, ineligible⟩ | ⟨outcome, noChunk, rfl, rfl⟩ |
        ⟨stream, stored, found, appended, rfl⟩
    · rw [outcome] at moved ⊢
      obtain rfl := moved rfl
      simp only [dropped]
      refine published_discarded codec rowCodec state good txn task row locked _ (fun _ _ => rfl) _ ?_ accounts
      intro consumer member
      cases found : sourceStream state.catalog.streams slotGeneration task.sourceOid with
      | none => simp [found] at member
      | some stream =>
          rw [found] at member
          have unwatched := ineligible stream (isGeneration ▸ found)
          simpa using List.any_eq_false.mp unwatched consumer member
    · rw [outcome] at still ⊢
      obtain rfl := still rfl
      simp only [noChunk, List.append_nil]
      exact good
    · rw [isGeneration] at found
      obtain ⟨events, invariant⟩ := good.sources slotGeneration task.sourceOid
      have numbered := (good.accounts.headers txn txnMember).numbered
      have sorted := sorted_of_numbered txn.changeLog _ _ numbered
      have starts : task.firstInputSeq ≤ task.nextInputSeq := by
        rw [← locked.first]
        exact ((good.facts.headers txn txnMember).cursors row locked.member _ locked.waiting).1
      have streamMember := (source_stream_some _ _ _ _ found).1
      have result := append_typed_prefix_cases sorted starts (invariant.target stream found) appended
      have same := source_stream_same streamMember
      have restored := published_streams codec rowCodec state good _ (streams_kept_store
        streamMember rfl (stream_kept_refl stream))
      generalize publication.outcome = outcome at result moved still ⊢
      generalize publication.chunkSeq = chunkSeq at result ⊢
      cases result with
      | empty nothing =>
          obtain rfl := moved rfl
          exact published_completed codec rowCodec state good txn task row locked true _ same nothing accounts
      | blocked pressed =>
          obtain rfl := still rfl
          simp only [List.append_nil]
          exact restored
      | discarded unwatched =>
          obtain rfl := moved rfl
          simp only [dropped]
          refine published_discarded codec rowCodec state good txn task row locked _ same _ ?_ accounts
          simp [found, unwatched]
      | appended chosen rows bytes next causal typed taken =>
          have earlier := stored_earlier rowCodec state slotGeneration task.sourceOid events invariant stream found
          obtain ⟨now, others⟩ := source_stream_moved state.catalog.streams slotGeneration task.sourceOid stream
            (storeChunk stream .data rows.length bytes task.finalLsn rows) found rfl rfl
          have isMoved : moves (if next.isSome then .appended else .completed) = true := by
            cases next <;> rfl
          obtain rfl := moved isMoved
          have final := published_appended codec rowCodec state good txn task row locked _ _ stream
            replay.publishedLsn chosen rows bytes next ⟨found, now, others⟩ causal typed taken accounts
          rw [← chunk_entries_appended (advancedState state txn task _ next _ state.log).catalog slotGeneration
            task.sourceOid stream rows bytes task.finalLsn now earlier] at final
          cases next <;> exact final

end Step

theorem published_step [DecidableEq Payload] {codec : PayloadCodec Payload} {rowCodec : RowCodec Payload Row}
    {state after : LoggedCatalog Payload Row} {call : Call Payload} (good : Published codec rowCodec state)
    (ok : loggedStep codec rowCodec state call = .ok after) : Published codec rowCodec after := by
  have observed := logged_step_catalog codec rowCodec state call
  rw [ok] at observed
  have taken : step codec rowCodec state.catalog call = .ok after.catalog := observed.symm
  cases call with
  | ingress call =>
      obtain ⟨ingress, streams⟩ := step_ingress_ok taken
      have accounts := accounts_ingress_step good.accounts call ingress
      have steps := headers_step_ok ingress
      have log : after.log = state.log := by
        simp only [loggedStep, taken, Except.map, Except.ok.injEq] at ok
        rw [← ok]
      obtain ⟨⟨afterIngress, afterStreams⟩, afterLog⟩ := after
      subst log
      subst streams
      refine ⟨accounts, task_facts_step _ _ good.facts steps, ?_⟩
      intro slotGeneration sourceOid
      obtain ⟨events, invariant⟩ := good.sources slotGeneration sourceOid
      exact ⟨events, invariant_headers rowCodec state slotGeneration sourceOid events good.accounts good.facts steps invariant⟩
  | publish slotGeneration =>
      simp only [loggedStep] at ok
      cases published : publishSourceBatch rowCodec state.catalog slotGeneration with
      | error fault =>
          rw [published] at ok
          cases ok
      | ok result =>
          rw [published] at ok
          obtain rfl := Except.ok.inj ok
          exact published_batch codec rowCodec state good published
  | stream call =>
      have ingress := stream_step_ingress taken
      have kept := stream_step_kept taken
      have log : after.log = state.log := by
        simp only [loggedStep, taken, Except.map, Except.ok.injEq] at ok
        rw [← ok]
      obtain ⟨⟨afterIngress, afterStreams⟩, afterLog⟩ := after
      subst log
      subst ingress
      exact published_streams codec rowCodec state good afterStreams kept

theorem published_attempts [DecidableEq Payload] (codec : PayloadCodec Payload) (rowCodec : RowCodec Payload Row)
    (calls : List (Call Payload)) : Published codec rowCodec (attempts (loggedStep codec rowCodec) emptyLog calls) := by
  refine reachable_invariant (Published codec rowCodec) ?_ ?_ _ (reachable_attempts _ calls (.start emptyLog rfl))
  · intro start isEmpty
    rw [← isEmpty]
    exact published_empty codec rowCodec
  · intro state call after good taken
    exact published_step good taken

end Shiba.Publication
