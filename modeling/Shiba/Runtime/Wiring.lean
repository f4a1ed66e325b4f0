import Shiba.Publication.Log
import Shiba.Runtime.Lifecycle

set_option autoImplicit false

namespace Shiba.Lifecycle

open SerialTable Transition Shiba.Ingress Shiba.Stream Shiba.Publication

variable {Payload Row : Type}

-- A stream as the wiring of the dataflows sees it: who produces it, and who
-- reads it from which LSN on.
structure StreamOutline where
  streamId : Nat
  producer : Producer
  readers : List (ConsumerKey × Lsn)

def reader (consumer : StreamConsumer) : ConsumerKey × Lsn := (consumer.consumer, consumer.activationLsn)

def outline (stream : EffectStream Row) : StreamOutline :=
  ⟨stream.streamId, stream.producer, stream.consumers.map reader⟩

def outlines (streams : Table (EffectStream Row) EffectStream.streamId) : List StreamOutline := streams.rows.map outline

def generation (replay : ReplayState) : Nat × String × GenerationState :=
  (replay.slotGeneration, replay.slotName, replay.state)

def generations (db : IngressCatalog Payload) : List (Nat × String × GenerationState) := db.replayState.rows.map generation

def Reads (streams : List StreamOutline) (producer : Producer) (key : ConsumerKey) (activationLsn : Lsn) : Prop :=
  ∃ stream ∈ streams, stream.producer = producer ∧ (key, activationLsn) ∈ stream.readers

-- One stream for each producer, and one stream for each input of a stage.
structure Single (streams : List StreamOutline) : Prop where
  producers : ∀ a ∈ streams, ∀ b ∈ streams, a.producer = b.producer → a.streamId = b.streamId
  inputs : ∀ a ∈ streams, ∀ b ∈ streams, ∀ x ∈ a.readers, ∀ y ∈ b.readers, x.1 = y.1 → a.streamId = b.streamId

structure OneActive (slotName : String) (known : List (Nat × String × GenerationState)) : Prop where
  named : ∀ entry ∈ known, entry.2.1 = slotName
  unique : ∀ a ∈ known, ∀ b ∈ known, a.2.2 = .active → b.2.2 = .active → a = b

def Fed (known : List (Nat × String × GenerationState)) (streams : List StreamOutline) (dataflow : Dataflow) : Prop :=
  ∀ scan ∈ dataflow.scans, ∃ entry ∈ known, entry.2.2 = .active ∧
    Reads streams (.source entry.1 scan.sourceOid) ⟨dataflow.resultOid, scan.stageId, 0⟩ dataflow.activationLsn

structure Wired (slotName : String) (db : Database Payload Row) : Prop where
  oneActive : OneActive slotName (generations db.catalog.ingress)
  single : Single (outlines db.catalog.streams)
  fed : ∀ dataflow ∈ db.dataflows, Fed (generations db.catalog.ingress) (outlines db.catalog.streams) dataflow

section Ingress

variable {db after : IngressCatalog Payload}

theorem generations_update (slotGeneration : Nat) (change : ReplayState → ReplayState)
    (keeps : ∀ replay, (change replay).slotGeneration = replay.slotGeneration)
    (same : ∀ replay, generation (change replay) = generation replay) :
    generations (db.updateReplay slotGeneration change keeps) = generations db := by
  change (db.replayState.rows.map _).map generation = db.replayState.rows.map generation
  rw [List.map_map]
  apply List.map_congr_left
  intro replay _
  change generation (if _ then change replay else replay) = generation replay
  split
  · exact same replay
  · rfl

theorem generations_claim (identity : ReplayIdentity) (row : ClaimedTransaction)
    (ok : claimIngressTransaction db identity = .ok (after, row)) : generations after = generations db := by
  obtain ⟨replay, _, ⟨txn, _, rfl, _⟩ | ⟨_, _, rfl, _⟩⟩ := claim_cases db after identity row ok
  · rfl
  · rfl

variable {codec : PayloadCodec Payload} {settings : AdmissionSettings Payload}
  {count ingressTxnId slotGeneration : Nat}

theorem generations_admit [DecidableEq Payload] {events : List (IngressEvent Payload)} {facts : AdmissionFacts}
    (ok : admitEvents codec settings db ingressTxnId events = .ok (after, facts)) :
    generations after = generations db := by
  obtain ⟨locked, txn, _, _, _, ⟨_, rfl⟩ | ⟨_, _, allocation, _, _, _, _, _, rfl⟩⟩ := admit_events_cases ok
  · rfl
  · exact generations_update txn.slotGeneration (stagePayload _) (fun _ => rfl) fun _ => rfl

theorem generations_commit {commitLsn endLsn : Lsn} {facts : CommitFacts}
    (ok : commitIngressTransaction db ingressTxnId commitLsn endLsn = .ok (after, facts)) :
    generations after = generations db := by
  obtain ⟨replay, txn, _, _, ⟨_, _, _, rfl⟩ | ⟨_, _, _, rfl⟩⟩ := commit_cases ok
  · exact generations_update txn.slotGeneration (persistThrough endLsn) (fun _ => rfl) fun _ => rfl
  · exact generations_update txn.slotGeneration (fun row => persistThrough endLsn (releasePayload txn.payloadBytes row))
      (fun _ => rfl) fun _ => rfl

theorem generations_abort {abortLsn : Lsn} {finalized : Bool}
    (ok : abortIngressTransaction db ingressTxnId abortLsn = .ok (after, finalized)) :
    generations after = generations db := by
  obtain ⟨replay, txn, _, ⟨_, _, rfl⟩ | ⟨_, _, rfl⟩⟩ := abort_cases ok
  · rfl
  · exact generations_update txn.slotGeneration (releasePayload txn.payloadBytes) (fun _ => rfl) fun _ => rfl

theorem generations_reconcile {server : ServerFacts}
    (ok : reconcilePostmasterRestart db server slotGeneration = .ok (after, count)) :
    generations after = generations db := by
  obtain ⟨replay, _, ⟨_, rfl⟩ | ⟨_, rfl⟩⟩ := reconcile_cases ok
  · rfl
  · exact generations_update slotGeneration (restartEpoch server) (fun _ => rfl) fun _ => rfl

theorem generations_finish (ingressTxnId : Nat) (boundary : Option IngressBoundary)
    (ok : finishBatch db ingressTxnId boundary = .ok after) : generations after = generations db := by
  cases boundary with
  | none =>
      cases ok
      rfl
  | some ending =>
      cases ending with
      | commit commitLsn endLsn =>
          obtain ⟨facts, committed⟩ := map_fst_ok ok
          exact generations_commit committed
      | abortTransaction abortLsn =>
          obtain ⟨finalized, aborted⟩ := map_fst_ok ok
          exact generations_abort aborted
      | abortSubtransaction sourceSubxid =>
          obtain ⟨recorded, aborted⟩ := map_fst_ok ok
          obtain ⟨_, _, _, _, rfl⟩ := abort_subtransaction_cases db after ingressTxnId sourceSubxid recorded aborted
          rfl

theorem generations_persist [DecidableEq Payload] {batch : IngressBatch Payload}
    (ok : persistIngressBatch codec settings db slotGeneration batch = .ok after) : generations after = generations db := by
  unfold persistIngressBatch at ok
  obtain ⟨⟨claimedDb, transaction⟩, claims, ok⟩ := bind_ok_iff.mp ok
  obtain ⟨⟨admittedDb, facts⟩, admits, ok⟩ := bind_ok_iff.mp ok
  rw [generations_finish _ _ ok, generations_admit admits, generations_claim _ transaction claims]

theorem generations_frontier (slotGeneration : Nat) (lsn : Option Lsn)
    (ok : advanceIngressPublicationFrontier db slotGeneration = .ok (after, lsn)) : generations after = generations db := by
  obtain ⟨replay, _, ⟨_, rfl⟩ | ⟨target, _, rfl⟩⟩ := advance_frontier_cases ok
  · rfl
  · exact generations_update slotGeneration (publishThrough target) (fun _ => rfl) fun _ => rfl

theorem generations_feedback {lsn : Lsn} {facts : FeedbackFacts}
    (ok : recordIngressFeedback db slotGeneration lsn = .ok (after, facts)) : generations after = generations db := by
  unfold recordIngressFeedback at ok
  split at ok
  · cases ok
  · split at ok
    · split at ok
      · cases ok
        exact generations_update slotGeneration (confirmThrough lsn) (fun _ => rfl) fun _ => rfl
      · cases ok
        rfl
    · cases ok

theorem generations_safe {slot : Option LogicalSlot} {lsn : Option Lsn}
    (ok : reconcileIngressReplaySafe db slot slotGeneration = .ok (after, lsn)) : generations after = generations db := by
  unfold reconcileIngressReplaySafe at ok
  split at ok
  · cases ok
  · split at ok
    · cases ok
    · split at ok
      · cases ok
      · split at ok
        · cases ok
          rfl
        · cases ok
          exact generations_update slotGeneration (proveSafe _) (fun _ => rfl) fun _ => rfl

theorem generations_collect {due : Nat → Bool} {maxTransactions : Nat}
    (ok : gcChangeLog db due maxTransactions = .ok (after, count)) : generations after = generations db := by
  unfold gcChangeLog at ok
  split at ok
  · cases ok
  · cases ok
    rfl

end Ingress

section Generations

variable {slotName : String} {known : List (Nat × String × GenerationState)}

theorem one_active_within (one : OneActive slotName known) (other : List (Nat × String × GenerationState))
    (within : ∀ entry ∈ other, entry ∈ known ∨ entry.2.1 = slotName ∧ entry.2.2 = .retired) : OneActive slotName other := by
  constructor
  · intro entry member
    rcases within entry member with old | retired
    · exact one.named entry old
    · exact retired.1
  · intro a left b right aActive bActive
    rcases within a left with aOld | retired
    · rcases within b right with bOld | retired
      · exact one.unique a aOld b bOld aActive bActive
      · rw [retired.2] at bActive
        cases bActive
    · rw [retired.2] at aActive
      cases aActive

theorem one_active_opened (one : OneActive slotName known) (idle : ∀ entry ∈ known, entry.2.2 ≠ .active) (fresh : Nat) :
    OneActive slotName (known ++ [(fresh, slotName, .active)]) := by
  constructor
  · intro entry member
    rcases List.mem_append.mp member with old | new
    · exact one.named entry old
    · rw [List.mem_singleton.mp new]
  · intro a left b right aActive bActive
    rcases List.mem_append.mp left with aOld | aNew
    · exact absurd aActive (idle a aOld)
    · rcases List.mem_append.mp right with bOld | bNew
      · exact absurd bActive (idle b bOld)
      · rw [List.mem_singleton.mp aNew, List.mem_singleton.mp bNew]

variable {db : IngressCatalog Payload}

theorem active_generation_some (replay : ReplayState) (found : activeGeneration db slotName = some replay) :
    replay ∈ db.replayState.rows ∧ replay.state = .active := by
  have holds := List.find?_some found
  simp only [decide_eq_true_eq] at holds
  exact ⟨List.mem_of_find?_eq_some found, holds.2⟩

theorem active_generation_none (one : OneActive slotName (generations db)) (absent : activeGeneration db slotName = none) :
    ∀ entry ∈ generations db, entry.2.2 ≠ .active := by
  intro entry member active
  obtain ⟨replay, row, rfl⟩ := List.mem_map.mp member
  have named : replay.slotName = slotName := one.named _ member
  have missed := List.find?_eq_none.mp absent replay row
  simp only [decide_eq_true_eq] at missed
  exact missed ⟨named, active⟩

theorem generations_opened (server : ServerFacts) (baseline : Lsn) :
    generations (openGeneration db server slotName baseline) =
      generations db ++ [(db.replayState.next, slotName, .active)] := by
  change List.map generation (db.replayState.rows ++ [_]) = _
  rw [List.map_append]
  rfl

theorem generations_retired (replay : ReplayState) (one : OneActive slotName (generations db))
    (found : activeGeneration db slotName = some replay) (keeps : ∀ row, (retireReplay row).slotGeneration = row.slotGeneration) :
    OneActive slotName (generations (db.updateReplay replay.slotGeneration retireReplay keeps)) ∧
      ∀ entry ∈ generations (db.updateReplay replay.slotGeneration retireReplay keeps), entry.2.2 ≠ .active := by
  have changed : ∀ entry ∈ generations (db.updateReplay replay.slotGeneration retireReplay keeps),
      (entry ∈ generations db ∧ entry.1 ≠ replay.slotGeneration) ∨ entry.2.1 = slotName ∧ entry.2.2 = .retired := by
    intro entry member
    obtain ⟨row, updated, rfl⟩ := List.mem_map.mp member
    rcases (db.mem_update_replay _ _ _ _).mp updated with ⟨old, other⟩ | ⟨before, old, _, rfl⟩
    · exact .inl ⟨List.mem_map_of_mem old, other⟩
    · have named : before.slotName = slotName := one.named _ (List.mem_map_of_mem old)
      exact .inr ⟨named, rfl⟩
  refine ⟨one_active_within one _ fun entry member => (changed entry member).imp_left And.left, ?_⟩
  intro entry member active
  rcases changed entry member with ⟨old, other⟩ | retired
  · obtain ⟨row, current⟩ := active_generation_some replay found
    have same := one.unique entry old _ (List.mem_map_of_mem row) active current
    exact other (congrArg Prod.fst same)
  · rw [retired.2] at active
    cases active

-- Either the active generation stays, or there was none or it was retired, and one is opened.
theorem ensure_generation_effect {after : IngressCatalog Payload} {server : ServerFacts} {slot : Option LogicalSlot}
    {forceNew : Bool} {slotGeneration : Nat} (one : OneActive slotName (generations db))
    (ok : ensureIngressGeneration db server slot slotName forceNew = .ok (after, slotGeneration)) :
    OneActive slotName (generations after) ∧
      (forceNew = false → (∃ entry ∈ generations db, entry.2.2 = .active) → after = db) := by
  unfold ensureIngressGeneration at ok
  split at ok
  · cases ok
  · split at ok
    · cases ok
    · rename_i baseline _
      split at ok
      · rename_i absent
        have idle := active_generation_none one absent
        rw [insert_generation_cases ok, generations_opened]
        refine ⟨one_active_opened one idle _, ?_⟩
        intro _ present
        obtain ⟨entry, member, active⟩ := present
        exact absurd active (idle entry member)
      · rename_i replay found
        split at ok
        · rename_i forced
          obtain ⟨still, idle⟩ := generations_retired replay one found fun _ => rfl
          rw [insert_generation_cases ok, generations_opened]
          refine ⟨one_active_opened still idle _, ?_⟩
          intro free
          rw [forced] at free
          cases free
        · split at ok
          · cases ok
          · simp only [Except.ok.injEq, Prod.mk.injEq] at ok
            rw [← ok.1]
            exact ⟨one, fun _ _ => rfl⟩

end Generations

section Streams

variable {streams : Table (EffectStream Row) EffectStream.streamId}

theorem outlines_store (streamId : Nat) (moved : EffectStream Row) :
    outlines (storeStream streams streamId moved) = (outlines streams).map fun entry =>
      if entry.streamId = streamId then ⟨entry.streamId, moved.producer, moved.consumers.map reader⟩ else entry := by
  change (streams.rows.map _).map outline = (streams.rows.map outline).map _
  rw [List.map_map, List.map_map]
  apply List.map_congr_left
  intro row _
  change outline (if decide (row.streamId = streamId) = true then { moved with streamId := row.streamId } else row) =
    if row.streamId = streamId then _ else outline row
  by_cases hit : row.streamId = streamId
  · rw [if_pos (decide_eq_true hit), if_pos hit]
    rfl
  · rw [if_neg (by simpa using hit), if_neg hit]

variable {published : Option Lsn} {slotGeneration streamId : Nat} {rowCodec : RowCodec Payload Row}

theorem outline_found {stream : EffectStream Row} (found : streams.find? streamId = some stream) {entry : StreamOutline}
    (member : entry ∈ outlines streams) (named : entry.streamId = streamId) :
    entry = outline stream := by
  obtain ⟨row, rowMember, rfl⟩ := List.mem_map.mp member
  obtain ⟨streamMember, same⟩ := streams.mem_of_find _ _ found
  rw [streams.row_unique row stream rowMember streamMember (named.trans same.symm)]

theorem outlines_kept (streamId : Nat) (stream moved : EffectStream Row) (found : streams.find? streamId = some stream)
    (producer : moved.producer = stream.producer) (readers : moved.consumers.map reader = stream.consumers.map reader) :
    outlines (storeStream streams streamId moved) = outlines streams := by
  rw [outlines_store]
  conv_rhs => rw [← List.map_id (outlines streams)]
  apply List.map_congr_left
  intro entry member
  by_cases hit : entry.streamId = streamId
  · have same := outline_found found member hit
    rw [if_pos hit, producer, readers, same]
    rfl
  · rw [if_neg hit]
    rfl

theorem reader_moved (consumer : ConsumerKey) (move : ConsumerAdvance) (row : StreamConsumer) :
    reader (moveConsumer consumer move row) = reader row := by
  unfold moveConsumer
  split <;> rfl

section

variable {catalog after : SourceCatalog Payload Row} {chunkLimit rowLimit byteLimit : Nat}

theorem outlines_consume {consumer : ConsumerKey} {move : ConsumerAdvance}
    (ok : streamStep catalog (.advance streamId consumer move) = .ok after) :
    after.ingress = catalog.ingress ∧ outlines after.streams = outlines catalog.streams := by
  obtain ⟨stream, moved, found, changed, rfl⟩ := on_stream_ok ok
  refine ⟨rfl, ?_⟩
  obtain ⟨row, _, _, _, _, _, _, _, same⟩ := advance_cases changed
  apply outlines_kept streamId stream moved found
  · rw [same]
  rw [same, List.map_map]
  exact List.map_congr_left fun row _ => reader_moved consumer move row

theorem outlines_collect (ok : streamStep catalog (.collect streamId chunkLimit rowLimit byteLimit) = .ok after) :
    after.ingress = catalog.ingress ∧ outlines after.streams = outlines catalog.streams := by
  obtain ⟨stream, moved, found, changed, rfl⟩ := on_stream_ok ok
  refine ⟨rfl, ?_⟩
  rcases gc_cases stream moved chunkLimit rowLimit byteLimit changed with ⟨_, same⟩ | ⟨slowest, _, same⟩
  · rw [same]
    exact outlines_kept streamId stream stream found rfl rfl
  · rw [same]
    exact outlines_kept streamId stream (removeChunks stream _) found rfl rfl

theorem append_keeps_outline {stream after : EffectStream Row} {expected : Nat} {kind : ChunkKind}
    {rowCount payloadBytes : Nat} {chunkLsn : Lsn} {payload : List (EffectRow Row)} {outcome : AppendOutcome}
    (ok : appendEffectStreamChunk stream published expected kind rowCount payloadBytes chunkLsn payload =
      .ok (after, outcome)) :
    after.producer = stream.producer ∧ after.consumers = stream.consumers ∧
      (outcome = .discarded → stream.consumers = []) := by
  obtain ⟨_, ⟨_, rfl, _, unwatched⟩ | ⟨_, _, _, ⟨rfl, rfl, _⟩ | ⟨rfl, _, rfl⟩⟩⟩ := append_cases ok
  · exact ⟨rfl, rfl, fun _ => unwatched⟩
  · exact ⟨rfl, rfl, fun wrong => by cases wrong⟩
  · exact ⟨rfl, rfl, fun wrong => by cases wrong⟩

theorem validated_discard (task : Task) (facts : AppendFacts) (chunkSeq next : Option Nat)
    (ok : validateAppendFacts task facts = .ok (.discarded, chunkSeq, next)) : facts.appendOutcome = some .discarded := by
  unfold validateAppendFacts at ok
  split at ok
  · split at ok
    · cases ok
    · cases ok
  · split at ok
    · cases ok
    · split at ok
      · split at ok
        · cases ok
        · split at ok
          · cases ok
          · cases ok
      · split at ok
        · cases ok
        · cases ok
      · assumption
      · cases ok

theorem append_prefix_outline {txn : IngressTransaction Payload} {task : Task} {stream after : EffectStream Row}
    {outcome : SourcePublicationOutcome} {chunkSeq next : Option Nat}
    (ok : appendTypedPrefix rowCodec txn task stream published = .ok (after, outcome, chunkSeq, next)) :
    after.producer = stream.producer ∧ after.consumers = stream.consumers ∧
      (outcome = .discarded → stream.consumers = []) := by
  unfold appendTypedPrefix at ok
  simp only at ok
  split at ok
  · cases ok
  · split at ok
    · cases ok
    · rename_i stored appendOutcome appended
      split at ok
      · cases ok
      · rename_i seq following valid
        simp only [Except.ok.injEq, Prod.mk.injEq] at ok
        obtain ⟨rfl, rfl, rfl, rfl⟩ := ok
        split at appended
        · obtain ⟨⟨result, resultOutcome⟩, made, same⟩ := except_map_ok appended
          obtain ⟨rfl, rfl⟩ := Prod.mk.inj same
          obtain ⟨producer, consumers, unwatched⟩ := append_keeps_outline made
          refine ⟨producer, consumers, ?_⟩
          intro discarded
          rw [discarded] at valid
          exact unwatched (Option.some.inj (validated_discard task _ _ _ valid))
        · simp only [Except.ok.injEq, Prod.mk.injEq] at appended
          obtain ⟨rfl, rfl⟩ := appended
          refine ⟨rfl, rfl, ?_⟩
          intro discarded
          rw [discarded] at valid
          cases validated_discard task _ _ _ valid

theorem publish_wiring {publication : SourcePublication}
    (ok : publishSourceBatch rowCodec catalog slotGeneration = .ok (after, publication)) :
    generations after.ingress = generations catalog.ingress ∧ outlines after.streams = outlines catalog.streams := by
  obtain ⟨replay, _, ⟨_, same, _, _⟩ | ⟨candidate, txn, task, next, _, _, published, _, advanced⟩⟩ :=
    publish_source_batch_cases ok
  · rw [same]
    exact ⟨rfl, rfl⟩
  · constructor
    · split at advanced
      · rw [(advance_task_cases advanced).2.2.2]
        rfl
      · rw [← Except.ok.inj advanced]
    · rcases publish_task_cases published with
        ⟨_, _, _, same, _⟩ | ⟨_, _, _, same⟩ | ⟨stream, moved, found, appended, same⟩
      · rw [same]
      · rw [same]
      · obtain ⟨producer, consumers, _⟩ := append_prefix_outline appended
        have member := (source_stream_some _ _ _ _ found).1
        rw [same]
        exact outlines_kept stream.streamId stream moved (catalog.streams.find_mem stream member) producer
          (by rw [consumers])

end

theorem single_within (kept other : List StreamOutline) (single : Single kept)
    (within : ∀ entry ∈ other, entry ∈ kept) : Single other :=
  ⟨fun a left b right => single.producers a (within a left) b (within b right),
    fun a left b right => single.inputs a (within a left) b (within b right)⟩

-- Whoever reads a source's stream reads no other, and publication finds it.
theorem read_stream (single : Single (outlines streams)) {sourceOid : Oid} {key : ConsumerKey} {activationLsn : Lsn}
    (reads : Reads (outlines streams) (.source slotGeneration sourceOid) key activationLsn) :
    ∃ stream, sourceStream streams slotGeneration sourceOid = some stream ∧
      (∃ consumer ∈ stream.consumers, consumer.consumer = key ∧ consumer.activationLsn = activationLsn) ∧
      ∀ other ∈ streams.rows, ∀ consumer ∈ other.consumers, consumer.consumer = key → other = stream := by
  obtain ⟨entry, member, producer, joined⟩ := reads
  obtain ⟨stream, row, rfl⟩ := List.mem_map.mp member
  obtain ⟨consumer, attached, same⟩ := List.mem_map.mp joined
  refine ⟨stream, ?_, ⟨consumer, attached, congrArg Prod.fst same, congrArg Prod.snd same⟩, ?_⟩
  · cases found : sourceStream streams slotGeneration sourceOid with
    | none =>
        have missed : stream.producer ≠ .source slotGeneration sourceOid := by
          simpa using List.find?_eq_none.mp found stream row
        exact absurd producer missed
    | some other =>
        obtain ⟨otherRow, otherProducer⟩ := source_stream_some streams slotGeneration sourceOid other found
        have sameId := single.producers _ (List.mem_map_of_mem otherRow) _ member (otherProducer.trans producer.symm)
        rw [streams.row_unique other stream otherRow row sameId]
  · intro other otherRow otherConsumer otherAttached named
    have sameKey : (reader otherConsumer).1 = key := named
    have sameId := single.inputs _ (List.mem_map_of_mem otherRow) _ member _ (List.mem_map_of_mem otherAttached) _ joined
      sameKey
    exact streams.row_unique other stream otherRow row sameId

end Streams

section Registration

-- A stream that registration may attach a Scan of the source to.
def Provisioned (streams : List StreamOutline) (slotGeneration : Nat) (entry : Oid × Nat) : Prop :=
  ∃ stream ∈ streams, stream.streamId = entry.2 ∧ stream.producer = .source slotGeneration entry.1

variable {catalog after : SourceCatalog Payload Row} {sourceOid : Oid} (streamId : Nat) (added : ConsumerKey × Lsn)
  {targetRows targetBytes slotGeneration : Nat}

theorem ensure_source_wiring {streamId : Nat} (single : Single (outlines catalog.streams))
    (ok : ensureSourceStream catalog slotGeneration sourceOid targetRows targetBytes = .ok (after, streamId)) :
    after.ingress = catalog.ingress ∧ Single (outlines after.streams) ∧
      (∀ entry ∈ outlines catalog.streams, entry ∈ outlines after.streams) ∧
      Provisioned (outlines after.streams) slotGeneration (sourceOid, streamId) := by
  unfold ensureSourceStream at ok
  split at ok
  · cases ok
  · rename_i limits _
    split at ok
    · cases ok
    · split at ok
      · cases ok
      · split at ok
        · rename_i stream found
          cases ok
          obtain ⟨row, producer⟩ := source_stream_some _ _ _ _ found
          exact ⟨rfl, single, fun entry member => member, outline stream, List.mem_map_of_mem row, rfl, producer⟩
        · rename_i absent
          cases ok
          have fresh : ∀ entry ∈ outlines catalog.streams, entry.producer ≠ .source slotGeneration sourceOid := by
            intro entry member
            obtain ⟨row, rowMember, rfl⟩ := List.mem_map.mp member
            have missed : row.producer ≠ .source slotGeneration sourceOid := by
              simpa using List.find?_eq_none.mp absent row rowMember
            exact missed
          have grown : ∀ inserted : EffectStream Row, outline inserted =
              ⟨catalog.streams.next, .source slotGeneration sourceOid, []⟩ →
              Single ((catalog.streams.rows ++ [inserted]).map outline) := by
            intro inserted shape
            rw [List.map_append, List.map_singleton, shape]
            constructor
            · intro a left b right same
              rcases List.mem_append.mp left with aOld | aNew
              · rcases List.mem_append.mp right with bOld | bNew
                · exact single.producers a aOld b bOld same
                · rw [List.mem_singleton.mp bNew] at same
                  exact absurd same (fresh a aOld)
              · rcases List.mem_append.mp right with bOld | bNew
                · rw [List.mem_singleton.mp aNew] at same
                  exact absurd same.symm (fresh b bOld)
                · rw [List.mem_singleton.mp aNew, List.mem_singleton.mp bNew]
            · intro a left b right x xRead y yRead same
              rcases List.mem_append.mp left with aOld | aNew
              · rcases List.mem_append.mp right with bOld | bNew
                · exact single.inputs a aOld b bOld x xRead y yRead same
                · rw [List.mem_singleton.mp bNew] at yRead
                  cases yRead
              · rw [List.mem_singleton.mp aNew] at xRead
                cases xRead
          refine ⟨rfl, grown _ rfl, ?_, ?_⟩
          · intro entry member
            change entry ∈ List.map outline (catalog.streams.rows ++ [_])
            rw [List.map_append]
            exact List.mem_append_left _ member
          · refine ⟨⟨catalog.streams.next, .source slotGeneration sourceOid, []⟩, ?_, rfl, rfl⟩
            change _ ∈ List.map outline (catalog.streams.rows ++ [_])
            rw [List.map_append]
            exact List.mem_append_right _ (List.mem_singleton.mpr rfl)

theorem provision_wiring (sources : List Oid) (catalog : SourceCatalog Payload Row) (entries : List (Oid × Nat))
    (single : Single (outlines catalog.streams))
    (ok : provisionSources slotGeneration targetRows targetBytes catalog sources = .ok (after, entries)) :
    after.ingress = catalog.ingress ∧ Single (outlines after.streams) ∧
      (∀ entry ∈ outlines catalog.streams, entry ∈ outlines after.streams) ∧
      ∀ entry ∈ entries, Provisioned (outlines after.streams) slotGeneration entry := by
  induction sources generalizing catalog entries with
  | nil =>
      cases ok
      exact ⟨rfl, single, fun entry member => member, fun entry wrong => by cases wrong⟩
  | cons source rest ih =>
      rw [provisionSources] at ok
      obtain ⟨⟨ensured, streamId⟩, made, ok⟩ := bind_ok_iff.mp ok
      obtain ⟨⟨later, others⟩, provisioned, ok⟩ := bind_ok_iff.mp ok
      cases ok
      obtain ⟨sameIngress, ensuredSingle, grows, placed⟩ := ensure_source_wiring single made
      obtain ⟨laterIngress, laterSingle, laterGrows, laterPlaced⟩ := ih ensured others ensuredSingle provisioned
      refine ⟨laterIngress.trans sameIngress, laterSingle, fun entry member => laterGrows entry (grows entry member), ?_⟩
      intro entry member
      rcases List.mem_cons.mp member with rfl | rest
      · obtain ⟨stream, streamMember, named⟩ := placed
        exact ⟨stream, laterGrows stream streamMember, named⟩
      · exact laterPlaced entry rest

def joined (streamId : Nat) (added : ConsumerKey × Lsn) (entry : StreamOutline) : StreamOutline :=
  if entry.streamId = streamId then { entry with readers := entry.readers ++ [added] } else entry

@[simp] theorem joined_id (entry : StreamOutline) :
    (joined streamId added entry).streamId = entry.streamId := by
  unfold joined
  split <;> rfl

@[simp] theorem joined_producer (entry : StreamOutline) :
    (joined streamId added entry).producer = entry.producer := by
  unfold joined
  split <;> rfl

theorem joined_readers (x : ConsumerKey × Lsn) (entry : StreamOutline) :
    x ∈ (joined streamId added entry).readers ↔ x ∈ entry.readers ∨ entry.streamId = streamId ∧ x = added := by
  unfold joined
  by_cases hit : entry.streamId = streamId
  · simp [hit]
  · simp [hit]

theorem single_joined (kept : List StreamOutline) (single : Single kept) (streamId : Nat) (added : ConsumerKey × Lsn)
    (fresh : ∀ entry ∈ kept, ∀ x ∈ entry.readers, x.1 ≠ added.1) : Single (kept.map (joined streamId added)) := by
  constructor
  · intro a left b right same
    obtain ⟨a, aMember, rfl⟩ := List.mem_map.mp left
    obtain ⟨b, bMember, rfl⟩ := List.mem_map.mp right
    rw [joined_producer, joined_producer] at same
    rw [joined_id, joined_id]
    exact single.producers a aMember b bMember same
  · intro a left b right x xRead y yRead same
    obtain ⟨a, aMember, rfl⟩ := List.mem_map.mp left
    obtain ⟨b, bMember, rfl⟩ := List.mem_map.mp right
    rw [joined_id, joined_id]
    rcases (joined_readers _ _ _ _).mp xRead with xOld | ⟨aNamed, rfl⟩
    · rcases (joined_readers _ _ _ _).mp yRead with yOld | ⟨_, rfl⟩
      · exact single.inputs a aMember b bMember x xOld y yOld same
      · exact absurd same (fresh a aMember x xOld)
    · rcases (joined_readers _ _ _ _).mp yRead with yOld | ⟨bNamed, _⟩
      · exact absurd same.symm (fresh b bMember y yOld)
      · exact aNamed.trans bNamed.symm

theorem attach_wiring {streamId : Nat} {key : ConsumerKey} {activationLsn : Lsn} (single : Single (outlines catalog.streams))
    (placed : Provisioned (outlines catalog.streams) slotGeneration (sourceOid, streamId))
    (ok : streamStep catalog (.attach streamId true key activationLsn) = .ok after) :
    after.ingress = catalog.ingress ∧ Single (outlines after.streams) ∧
      outlines after.streams = (outlines catalog.streams).map (joined streamId (key, activationLsn)) ∧
      Reads (outlines after.streams) (.source slotGeneration sourceOid) key activationLsn := by
  obtain ⟨stream, moved, found, attached, rfl⟩ := on_stream_ok ok
  obtain ⟨entry, member, named, producer⟩ := placed
  have entryOutline := outline_found found member named
  have streamProducer : stream.producer = .source slotGeneration sourceOid := by
    rw [entryOutline] at producer
    exact producer
  obtain ⟨unread, _, same⟩ := attach_cases attached
  have elsewhere : fedElsewhere catalog streamId key = false := by
    unfold attachEffectStreamConsumer at attached
    by_contra fed
    simp [Bool.eq_true_of_not_eq_false fed] at attached
    split at attached <;> first | cases attached | (split at attached <;> cases attached)
  have fresh : ∀ entry ∈ outlines catalog.streams, ∀ x ∈ entry.readers, x.1 ≠ key := by
    intro other otherMember x read sameKey
    obtain ⟨row, rowMember, rfl⟩ := List.mem_map.mp otherMember
    obtain ⟨consumer, consumerMember, rfl⟩ := List.mem_map.mp read
    have reads : (row.findConsumer key).isSome = true := by
      refine List.find?_isSome.mpr ⟨consumer, consumerMember, ?_⟩
      exact decide_eq_true sameKey
    by_cases here : row.streamId = streamId
    · obtain ⟨streamMember, sameId⟩ := catalog.streams.mem_of_find _ _ found
      rw [catalog.streams.row_unique row stream rowMember streamMember (here.trans sameId.symm), unread] at reads
      cases reads
    · have hit : fedElsewhere catalog streamId key = true :=
        List.any_eq_true.mpr ⟨row, rowMember, by simp [here, reads]⟩
      rw [elsewhere] at hit
      cases hit
  have wiring : outlines (storeStream catalog.streams streamId moved) =
      (outlines catalog.streams).map (joined streamId (key, activationLsn)) := by
    rw [outlines_store]
    apply List.map_congr_left
    intro other otherMember
    unfold joined
    by_cases hit : other.streamId = streamId
    · rw [if_pos hit, if_pos hit, outline_found found otherMember hit, same]
      simp only [List.map_append, List.map_singleton, freshConsumer, streamProducer, outline, reader]
    · rw [if_neg hit, if_neg hit]
  refine ⟨rfl, ?_, wiring, ?_⟩
  · rw [wiring]
    exact single_joined _ single streamId (key, activationLsn) fresh
  · rw [wiring]
    refine ⟨joined streamId (key, activationLsn) entry, List.mem_map_of_mem member, ?_, ?_⟩
    · rw [joined_producer, producer]
    · exact (joined_readers _ _ _ _).mpr (.inr ⟨named, rfl⟩)

end Registration

end Shiba.Lifecycle
