import Shiba.Ingress.Transactions

set_option autoImplicit false

namespace Shiba.Ingress

open SerialTable

variable {Payload : Type} [DecidableEq Payload]

-- octet_length(jsonb_send(payload)) and Value::is_object.
structure PayloadCodec (Payload : Type) where
  octetLength : Payload → Nat
  isObject : Payload → Bool

-- What an admission reads outside the ingress tables: the staging limit and
-- whether jsonb_populate_record types every payload of one live source.
structure AdmissionSettings (Payload : Type) where
  stagingLimit : Nat
  typedSource : Oid → List Payload → Bool

structure AdmissionFacts where
  insertedCount : Nat
  replayedCount : Nat
  firstInputSeq : Option Nat
  lastInputSeq : Option Nat
deriving DecidableEq, Repr

structure ReplayFacts where
  insertedCount : Nat
  replayedCount : Nat
  lastReplayedOrdinal : Option Nat
  firstNewOrdinal : Option Nat
  firstInputSeq : Option Nat
  lastInputSeq : Option Nat
  identityConflict : Bool
  batchPayloadBytes : Nat
deriving DecidableEq, Repr

structure Allocation where
  firstInputSeq : Nat
  lastInputSeq : Nat
  batchOrdinal : Nat
  taskCount : Nat
  eventCount : Nat
  payloadBytes : Nat
  batchCount : Nat
  pendingPublications : Nat
deriving DecidableEq, Repr

structure WriteFacts where
  insertedCount : Nat
  firstInputSeq : Option Nat
  lastInputSeq : Option Nat
  payloadBytes : Nat
  taskCount : Nat
  replayUpdates : Nat
  headerUpdates : Nat
  eventCount : Option Nat
  totalPayloadBytes : Option Nat
  batchCount : Option Nat
  pendingPublications : Option Nat
deriving DecidableEq, Repr

def validEvent (codec : PayloadCodec Payload) (event : IngressEvent Payload) : Bool :=
  decide (event.changeOrdinal ≤ bigintMax) && decide (event.imageOrdinal ≤ 2147483647)
    && decide (event.sourceOid ≠ 0) && decide (event.weight = -1 ∨ event.weight = 1) && codec.isObject event.payload

-- The Rust loop reports the first offending event, so the two checks interleave.
def validateEventsFrom (codec : PayloadCodec Payload) (identities : List (Lsn × Nat × Nat)) :
    List (IngressEvent Payload) → Except Fault Unit
  | [] => .ok ()
  | event :: rest =>
      if !validEvent codec event then .error (.failed "ingress event batch contains an invalid value")
      else if event.identity ∈ identities then
        .error (.failed "ingress event batch repeats a stable event identity")
      else validateEventsFrom codec (event.identity :: identities) rest

def validateEvents (codec : PayloadCodec Payload) (events : List (IngressEvent Payload)) : Except Fault Unit :=
  match validateEventsFrom codec [] events with
  | .error fault => .error fault
  | .ok () =>
      if bigintMax < events.length then .error (.failed "ingress event batch exceeds bigint") else .ok ()

def sourceOids (events : List (IngressEvent Payload)) : List Oid := (events.map IngressEvent.sourceOid).dedup

def validateSourceRows (settings : AdmissionSettings Payload) (events : List (IngressEvent Payload)) :
    Except Fault Unit :=
  if (sourceOids events).all (fun source =>
      settings.typedSource source ((events.filter fun event => event.sourceOid = source).map IngressEvent.payload)) then
    .ok ()
  else .error (.failed "could not validate typed source")

-- The LEFT JOIN of the incoming events with change_log on the stable identity.
def existingRow (txn : IngressTransaction Payload) (event : IngressEvent Payload) : Option (ChangeRow Payload) :=
  txn.changeLog.find? fun row => row.identity = event.identity

structure Matched (Payload : Type) where
  ordinal : Nat
  event : IngressEvent Payload
  existing : Option (ChangeRow Payload)

def matchedRows (txn : IngressTransaction Payload) (events : List (IngressEvent Payload)) : List (Matched Payload) :=
  (events.zipIdx 1).map fun (event, ordinal) => ⟨ordinal, event, existingRow txn event⟩

def Matched.replayed (row : Matched Payload) : Bool := row.existing.isSome

-- IS DISTINCT FROM on source_oid, source_subxid, weight and payload.
def Matched.conflicts (row : Matched Payload) : Bool :=
  match row.existing with
  | none => false
  | some existing =>
      existing.sourceOid ≠ row.event.sourceOid || existing.sourceSubxid ≠ row.event.sourceSubxid
        || existing.weight ≠ row.event.weight || existing.payload ≠ row.event.payload

def payloadTotal (codec : PayloadCodec Payload) (events : List (IngressEvent Payload)) : Nat :=
  (events.map fun event => codec.octetLength event.payload).sum

def classifyReplay (codec : PayloadCodec Payload) (txn : IngressTransaction Payload)
    (events : List (IngressEvent Payload)) : ReplayFacts :=
  let rows := matchedRows txn events
  let replayed := rows.filter Matched.replayed
  let fresh := rows.filter fun row => !row.replayed
  { insertedCount := fresh.length
    replayedCount := replayed.length
    lastReplayedOrdinal := (replayed.map Matched.ordinal).max?
    firstNewOrdinal := (fresh.map Matched.ordinal).min?
    firstInputSeq := ((replayed.filterMap Matched.existing).map ChangeRow.inputSeq).min?
    lastInputSeq := ((replayed.filterMap Matched.existing).map ChangeRow.inputSeq).max?
    identityConflict := rows.any Matched.conflicts
    batchPayloadBytes := payloadTotal codec (fresh.map Matched.event) }

def notAPrefix (replay : ReplayFacts) : Bool :=
  match replay.firstNewOrdinal, replay.lastReplayedOrdinal with
  | some first, some last => decide (first < last)
  | _, _ => false

def validateReplay (ingressTxnId : Nat) (status : TxnStatus) (replay : ReplayFacts) : Except Fault Unit :=
  if replay.identityConflict then
    .error (.failed s!"ingress event identity conflict for transaction {ingressTxnId}")
  else if notAPrefix replay then
    .error (.failed s!"ingress replay for transaction {ingressTxnId} is not an existing prefix")
  else if status ≠ .opened ∧ 0 < replay.insertedCount then
    .error (.failed s!"replay added events to ingress transaction {ingressTxnId} in terminal state {status.text}")
  else .ok ()

def allocate (txn : IngressTransaction Payload) (replay : ReplayFacts) (taskCount : Nat) : Except Fault Allocation :=
  match checkedAdd txn.eventCount 1 "ingress event sequence exhausted bigint range" with
  | .error fault => .error fault
  | .ok firstInputSeq =>
  match checkedAdd txn.eventCount replay.insertedCount "ingress transaction event count exhausted bigint range" with
  | .error fault => .error fault
  | .ok eventCount =>
  match checkedAdd txn.payloadBytes replay.batchPayloadBytes
      "ingress transaction payload summary exhausted bigint range" with
  | .error fault => .error fault
  | .ok payloadBytes =>
  match checkedAdd txn.batchCount 1 "ingress apply batch count exhausted bigint range" with
  | .error fault => .error fault
  | .ok batchCount =>
  match checkedAdd txn.pendingPublications taskCount "ingress publication task count exhausted bigint range" with
  | .error fault => .error fault
  | .ok pendingPublications =>
      .ok { firstInputSeq, lastInputSeq := eventCount, batchOrdinal := batchCount, taskCount, eventCount,
            payloadBytes, batchCount, pendingPublications }

-- row_number() over the new events, starting at the allocated sequence.
def numberRows (firstInputSeq : Nat) (events : List (IngressEvent Payload)) : List (ChangeRow Payload) :=
  (events.zipIdx firstInputSeq).map fun (event, inputSeq) => { event with inputSeq }

def rowEvents (rows : List (ChangeRow Payload)) : List (IngressEvent Payload) := rows.map ChangeRow.toIngressEvent

-- One task per source of the batch; its cursor starts at its first event.
def publicationTasks (allocation : Allocation) (inserted : List (ChangeRow Payload)) : List PublicationTask :=
  (sourceOids (rowEvents inserted)).map fun source =>
    { batchOrdinal := allocation.batchOrdinal
      sourceOid := source
      firstInputSeq := allocation.firstInputSeq
      lastInputSeq := allocation.lastInputSeq
      nextInputSeq := ((inserted.filter fun row => row.sourceOid = source).map ChangeRow.inputSeq).min? }

def insertedMatches (codec : PayloadCodec Payload) (replay : ReplayFacts) (allocation : Allocation)
    (inserted : List (ChangeRow Payload)) : Bool :=
  inserted.length = allocation.lastInputSeq + 1 - allocation.firstInputSeq
    && (inserted.map ChangeRow.inputSeq).min? = some allocation.firstInputSeq
    && (inserted.map ChangeRow.inputSeq).max? = some allocation.lastInputSeq
    && payloadTotal codec (rowEvents inserted) = replay.batchPayloadBytes

def admitRows (allocation : Allocation) (rows : List (ChangeRow Payload)) (tasks : List PublicationTask)
    (txn : IngressTransaction Payload) : IngressTransaction Payload :=
  { txn with
    changeLog := txn.changeLog ++ rows
    publications := txn.publications ++ tasks
    eventCount := allocation.eventCount
    payloadBytes := allocation.payloadBytes
    batchCount := allocation.batchCount
    pendingPublications := allocation.pendingPublications }

def stageRows (rows : List (ChangeRow Payload)) (tasks : List PublicationTask) (txn : IngressTransaction Payload) :
    IngressTransaction Payload :=
  { txn with changeLog := txn.changeLog ++ rows, publications := txn.publications ++ tasks }

def stagePayload (bytes : Nat) (replay : ReplayState) : ReplayState :=
  { replay with openPayloadBytes := replay.openPayloadBytes + bytes }

-- The data-modifying CTE. Each part runs on the rows as they were locked; the
-- header part runs only with the replay part, and both only on matching facts.
def writeBatch (codec : PayloadCodec Payload) (settings : AdmissionSettings Payload) (db : IngressCatalog Payload)
    (locked : ReplayState) (txn : IngressTransaction Payload) (events : List (IngressEvent Payload))
    (replay : ReplayFacts) (allocation : Allocation) : IngressCatalog Payload × WriteFacts :=
  let inserted := numberRows allocation.firstInputSeq (events.drop replay.replayedCount)
  let facts := insertedMatches codec replay allocation inserted
  let tasks := if facts then publicationTasks allocation inserted else []
  let replayUpdated := facts && decide (tasks.length = allocation.taskCount)
    && decide (locked.openPayloadBytes + replay.batchPayloadBytes ≤ settings.stagingLimit)
  let headerUpdated := replayUpdated && decide (txn.status = .opened)
  let header := if headerUpdated then admitRows allocation inserted tasks else stageRows inserted tasks
  let staged := if replayUpdated then stagePayload replay.batchPayloadBytes else id
  let written : IngressCatalog Payload :=
    { replayState := db.replayState.update txn.slotGeneration staged
        (by intro row; simp only [staged]; split <;> rfl)
      transactions := db.transactions.update txn.ingressTxnId header
        (by intro row; simp only [header]; split <;> rfl) }
  (written,
    { insertedCount := inserted.length
      firstInputSeq := (inserted.map ChangeRow.inputSeq).min?
      lastInputSeq := (inserted.map ChangeRow.inputSeq).max?
      payloadBytes := payloadTotal codec (rowEvents inserted)
      taskCount := tasks.length
      replayUpdates := replayUpdated.toNat
      headerUpdates := headerUpdated.toNat
      eventCount := if headerUpdated then some allocation.eventCount else none
      totalPayloadBytes := if headerUpdated then some allocation.payloadBytes else none
      batchCount := if headerUpdated then some allocation.batchCount else none
      pendingPublications := if headerUpdated then some allocation.pendingPublications else none })

def expectedWrite (replay : ReplayFacts) (allocation : Allocation) : WriteFacts :=
  { insertedCount := replay.insertedCount
    firstInputSeq := some allocation.firstInputSeq
    lastInputSeq := some allocation.lastInputSeq
    payloadBytes := replay.batchPayloadBytes
    taskCount := allocation.taskCount
    replayUpdates := 1
    headerUpdates := 1
    eventCount := some allocation.eventCount
    totalPayloadBytes := some allocation.payloadBytes
    batchCount := some allocation.batchCount
    pendingPublications := some allocation.pendingPublications }

def validateWrite (ingressTxnId : Nat) (replay : ReplayFacts) (allocation : Allocation) (written : WriteFacts) :
    Except Fault Unit :=
  if written = expectedWrite replay allocation then .ok ()
  else .error (.failed s!"ingress transaction {ingressTxnId} write facts did not match")

def minOption (left right : Option Nat) : Option Nat :=
  match left, right with
  | some a, some b => some (min a b)
  | some a, none => some a
  | none, other => other

def maxOption (left right : Option Nat) : Option Nat :=
  match left, right with
  | some a, some b => some (max a b)
  | some a, none => some a
  | none, other => other

def replayOnly (replay : ReplayFacts) : AdmissionFacts :=
  ⟨replay.insertedCount, replay.replayedCount, replay.firstInputSeq, replay.lastInputSeq⟩

def admitEvents (codec : PayloadCodec Payload) (settings : AdmissionSettings Payload) (db : IngressCatalog Payload)
    (ingressTxnId : Nat) (events : List (IngressEvent Payload)) :
    Except Fault (IngressCatalog Payload × AdmissionFacts) :=
  if ingressTxnId = 0 then .error (.failed "ingress transaction ID must be positive")
  else
  match validateEvents codec events with
  | .error fault => .error fault
  | .ok () =>
  match lockTransaction db ingressTxnId with
  | .error fault => .error fault
  | .ok (locked, txn) =>
  match validateSourceRows settings events with
  | .error fault => .error fault
  | .ok () =>
  let replay := classifyReplay codec txn events
  match validateReplay ingressTxnId txn.status replay with
  | .error fault => .error fault
  | .ok () =>
  if txn.status ≠ .opened ∨ replay.insertedCount = 0 then .ok (db, replayOnly replay)
  else
  let taskCount := (sourceOids (events.drop replay.replayedCount)).length
  if taskCount < 1 then .error (.failed "new ingress batch has no source publication task")
  else
  match allocate txn replay taskCount with
  | .error fault => .error fault
  | .ok allocation =>
  let (written, facts) := writeBatch codec settings db locked txn events replay allocation
  match validateWrite ingressTxnId replay allocation facts with
  | .error fault => .error fault
  | .ok () =>
      .ok (written,
        { insertedCount := replay.insertedCount
          replayedCount := replay.replayedCount
          firstInputSeq := minOption replay.firstInputSeq (some allocation.firstInputSeq)
          lastInputSeq := maxOption replay.lastInputSeq (some allocation.lastInputSeq) })

end Shiba.Ingress
