import Shiba.Ingress.Transactions
import Shiba.Stream.EffectStream

set_option autoImplicit false

namespace Shiba.Publication

open SerialTable Budget Shiba.Ingress Shiba.Stream

variable {Payload Row : Type}

-- jsonb_populate_record into the row type of one stream's payload relation,
-- and octet_length(record_send(row)).
structure RowCodec (Payload Row : Type) where
  populate : Nat → Payload → Except Fault Row
  recordLength : Row → Nat

def RowCodec.effectRowBytes (codec : RowCodec Payload Row) (row : Row) : Nat := codec.recordLength row + 8

structure SourceCatalog (Payload Row : Type) where
  ingress : IngressCatalog Payload
  streams : Table (EffectStream Row) EffectStream.streamId

def storeStream (streams : Table (EffectStream Row) EffectStream.streamId) (streamId : Nat) (after : EffectStream Row) :
    Table (EffectStream Row) EffectStream.streamId :=
  streams.update streamId (fun row => { after with streamId := row.streamId }) (fun _ => rfl)

inductive SourcePublicationOutcome where
  | idle
  | blocked
  | appended
  | completed
  | discarded
deriving DecidableEq, Repr

structure SourcePublication where
  outcome : SourcePublicationOutcome
  ingressTxnId : Option Nat
  batchOrdinal : Option Nat
  sourceOid : Option Oid
  finalLsn : Option Lsn
  chunkSeq : Option Nat
  hasPending : Bool
deriving DecidableEq, Repr

def SourcePublication.withoutTask (outcome : SourcePublicationOutcome) (hasPending : Bool) : SourcePublication :=
  ⟨outcome, none, none, none, none, none, hasPending⟩

-- A source_publications row joined with its header.
structure PendingTask (Payload : Type) where
  header : IngressTransaction Payload
  task : PublicationTask

structure Task where
  ingressTxnId : Nat
  batchOrdinal : Nat
  sourceOid : Oid
  firstInputSeq : Nat
  lastInputSeq : Nat
  nextInputSeq : Nat
  finalLsn : Lsn
deriving DecidableEq, Repr

structure AppendFacts where
  selectedRows : Nat
  selectedBytes : Nat
  selectedLastInputSeq : Option Nat
  appendOutcome : Option AppendOutcome
  insertedRows : Nat
  insertedBytes : Nat
  nextInputSeq : Option Nat
deriving DecidableEq, Repr

def requireCount (rows expected : Nat) (name : String) : Except Fault Unit :=
  if rows = expected then .ok ()
  else .error (.failed s!"{name} returned {rows} rows, expected {expected}")

def committedIn (slotGeneration : Nat) (txn : IngressTransaction Payload) : Bool :=
  txn.slotGeneration = slotGeneration ∧ txn.status = .committed

def pendingTasks (db : IngressCatalog Payload) (slotGeneration : Nat) : List (PendingTask Payload) :=
  (db.transactions.rows.filter (committedIn slotGeneration)).flatMap fun txn =>
    (txn.publications.filter isPending).map fun task => ⟨txn, task⟩

-- (final_lsn, ingress_txn_id, batch_ordinal).
def PendingTask.order (pending : PendingTask Payload) : Nat ×ₗ Nat ×ₗ Nat :=
  toLex (pending.header.finalLsn.getD 0, toLex (pending.header.ingressTxnId, pending.task.batchOrdinal))

def PendingTask.key (pending : PendingTask Payload) : (Nat ×ₗ Nat ×ₗ Nat) ×ₗ Nat :=
  toLex (pending.order, pending.task.sourceOid)

def sourceStream (streams : Table (EffectStream Row) EffectStream.streamId) (slotGeneration : Nat) (sourceOid : Oid) :
    Option (EffectStream Row) :=
  streams.rows.find? fun stream => stream.producer = .source slotGeneration sourceOid

def hasEligibleConsumer (stream : EffectStream Row) (finalLsn : Lsn) : Bool :=
  stream.consumers.any fun consumer => decide (consumer.activationLsn < finalLsn)

def blockedSource (streams : Table (EffectStream Row) EffectStream.streamId) (pending : PendingTask Payload) : Bool :=
  (sourceStream streams pending.header.slotGeneration pending.task.sourceOid).any fun stream =>
    stream.backpressured && hasEligibleConsumer stream (pending.header.finalLsn.getD 0)

def eligible (db : SourceCatalog Payload Row) (pending : List (PendingTask Payload)) (candidate : PendingTask Payload) :
    Bool :=
  !(pending.any fun earlier =>
      decide (earlier.task.sourceOid = candidate.task.sourceOid) && decide (earlier.order < candidate.order))
    && !blockedSource db.streams candidate

def chooseCandidate (db : SourceCatalog Payload Row) (slotGeneration : Nat) : Option (PendingTask Payload) :=
  let pending := pendingTasks db.ingress slotGeneration
  (pending.filter (eligible db pending)).argmin PendingTask.key

def namesTask (batchOrdinal : Nat) (sourceOid : Oid) (task : PublicationTask) : Bool :=
  task.batchOrdinal = batchOrdinal ∧ task.sourceOid = sourceOid

def lockTask (db : IngressCatalog Payload) (slotGeneration : Nat) (candidate : PendingTask Payload) :
    Except Fault (IngressTransaction Payload × Task) :=
  match (db.findTransaction candidate.header.ingressTxnId).filter (committedIn slotGeneration) with
  | none => .error (.failed "committed publication transaction returned 0 rows, expected 1")
  | some txn =>
      match txn.finalLsn with
      | none => .error (.failed "database returned NULL publication final LSN")
      | some finalLsn =>
          let locked := txn.publications.filter fun task =>
            namesTask candidate.task.batchOrdinal candidate.task.sourceOid task && isPending task
          match locked with
          | [task] =>
              .ok (txn, ⟨txn.ingressTxnId, task.batchOrdinal, task.sourceOid, task.firstInputSeq, task.lastInputSeq,
                task.nextInputSeq.getD 0, finalLsn⟩)
          | _ => .error (.failed s!"pending source publication task returned {locked.length} rows, expected 1")

-- change_log rows of one source in an input range, aborted subtransactions
-- punched out. change_log is kept in input_seq order.
def sourceEvents (txn : IngressTransaction Payload) (sourceOid : Oid) (first last : Nat) : List (ChangeRow Payload) :=
  txn.changeLog.filter fun event =>
    decide (event.sourceOid = sourceOid) && decide (first ≤ event.inputSeq) && decide (event.inputSeq ≤ last)
      && decide (event.sourceSubxid ∉ txn.abortedSubtransactions)

structure TypedEvent (Row : Type) where
  inputSeq : Nat
  row : EffectRow Row

def convertEvents (codec : RowCodec Payload Row) (streamId : Nat) :
    List (ChangeRow Payload) → Except Fault (List (TypedEvent Row))
  | [] => .ok []
  | event :: rest =>
      match codec.populate streamId event.payload with
      | .error fault => .error fault
      | .ok rowValue =>
          match convertEvents codec streamId rest with
          | .error fault => .error fault
          | .ok converted => .ok (⟨event.inputSeq, ⟨event.weight, rowValue⟩⟩ :: converted)

def typedBytes (codec : RowCodec Payload Row) (events : List (TypedEvent Row)) : Nat :=
  (events.map fun event => codec.effectRowBytes event.row.rowValue).sum

def selectEvents (codec : RowCodec Payload Row) (limits : StreamLimits) (events : List (TypedEvent Row)) :
    List (TypedEvent Row) :=
  withinBudget
    (fun taken => decide (taken.length ≤ limits.targetChunkRows)
      && decide (typedBytes codec taken ≤ limits.targetChunkBytes))
    events

def inconsistentFacts (task : Task) (detail : String) : Fault :=
  .failed s!"source publication {task.ingressTxnId}/{task.batchOrdinal}/{task.sourceOid} {detail}"

-- `none` is the text 'empty': nothing was selected, so nothing was appended.
def validateAppendFacts (task : Task) (facts : AppendFacts) :
    Except Fault (SourcePublicationOutcome × Option Nat × Option Nat) :=
  if facts.selectedRows = 0 then
    if facts.selectedBytes ≠ 0 ∨ facts.selectedLastInputSeq.isSome ∨ facts.appendOutcome ≠ none
        ∨ facts.insertedRows ≠ 0 ∨ facts.insertedBytes ≠ 0 ∨ facts.nextInputSeq.isSome then
      .error (inconsistentFacts task "returned inconsistent empty append facts")
    else .ok (.completed, none, none)
  else if facts.selectedBytes < 1 ∨ facts.selectedLastInputSeq = none then
    .error (inconsistentFacts task "selected rows without typed payload")
  else
    match facts.appendOutcome with
    | some (.appended chunkSeq) =>
        if facts.insertedRows ≠ facts.selectedRows ∨ facts.insertedBytes ≠ facts.selectedBytes then
          .error (inconsistentFacts task
            s!"selected {facts.selectedRows}/{facts.selectedBytes}, inserted {facts.insertedRows}/{facts.insertedBytes}")
        else if facts.nextInputSeq.isSome then .ok (.appended, some chunkSeq, facts.nextInputSeq)
        else .ok (.completed, some chunkSeq, none)
    | some .blocked =>
        if facts.insertedRows ≠ 0 ∨ facts.insertedBytes ≠ 0 ∨ facts.nextInputSeq.isSome then
          .error (inconsistentFacts task "wrote payload after blocked")
        else .ok (.blocked, none, none)
    | some .discarded =>
        if facts.insertedRows ≠ 0 ∨ facts.insertedBytes ≠ 0 ∨ facts.nextInputSeq.isSome then
          .error (inconsistentFacts task "wrote payload after discarded")
        else .ok (.discarded, none, none)
    | none => .error (.failed "unknown source stream append outcome empty")

-- The min(input_seq) after the selected prefix; only an append reports it.
def nextInput (txn : IngressTransaction Payload) (task : Task) (selectedLast : Option Nat) : Option Nat :=
  selectedLast.bind fun last =>
    ((sourceEvents txn task.sourceOid (last + 1) task.lastInputSeq).map ChangeRow.inputSeq).min?

def isAppended : Option AppendOutcome → Bool
  | some (.appended _) => true
  | _ => false

def appendTypedPrefix (codec : RowCodec Payload Row) (txn : IngressTransaction Payload) (task : Task)
    (stream : EffectStream Row) (generationPublishedLsn : Option Lsn) :
    Except Fault (EffectStream Row × SourcePublicationOutcome × Option Nat × Option Nat) :=
  let first := max task.nextInputSeq task.firstInputSeq
  let candidates := (sourceEvents txn task.sourceOid first task.lastInputSeq).take stream.targetChunkRows
  match convertEvents codec stream.streamId candidates with
  | .error fault => .error fault
  | .ok converted =>
      let selected := selectEvents codec stream.toStreamLimits converted
      let bytes := typedBytes codec selected
      let last := (selected.map TypedEvent.inputSeq).max?
      let append : Except Fault (EffectStream Row × Option AppendOutcome) :=
        if 0 < selected.length ∧ 0 < bytes then
          (appendEffectStreamChunk stream generationPublishedLsn stream.nextChunkSeq .data selected.length bytes
            task.finalLsn (selected.map TypedEvent.row)).map fun result => (result.1, some result.2)
        else .ok (stream, none)
      match append with
      | .error fault => .error fault
      | .ok (after, outcome) =>
          let inserted := if isAppended outcome then selected else []
          let facts : AppendFacts :=
            { selectedRows := selected.length
              selectedBytes := bytes
              selectedLastInputSeq := last
              appendOutcome := outcome
              insertedRows := inserted.length
              insertedBytes := typedBytes codec inserted
              nextInputSeq := if isAppended outcome then nextInput txn task last else none }
          match validateAppendFacts task facts with
          | .error fault => .error fault
          | .ok (published, chunkSeq, next) => .ok (after, published, chunkSeq, next)

-- The compare-and-set condition of the cursor update.
def atCursor (task : Task) (row : PublicationTask) : Bool :=
  namesTask task.batchOrdinal task.sourceOid row && decide (row.nextInputSeq = some task.nextInputSeq)

def moveCursor (task : Task) (next : Option Nat) (row : PublicationTask) : PublicationTask :=
  if atCursor task row then { row with nextInputSeq := next } else row

def advanceHeader (task : Task) (finished : Bool) (next : Option Nat) (txn : IngressTransaction Payload) :
    IngressTransaction Payload :=
  { txn with
    publications := txn.publications.map (moveCursor task next)
    pendingPublications := if finished then txn.pendingPublications - 1 else txn.pendingPublications }

def finishes (outcome : SourcePublicationOutcome) : Bool :=
  match outcome with
  | .completed => true
  | .discarded => true
  | _ => false

def moves (outcome : SourcePublicationOutcome) : Bool :=
  match outcome with
  | .appended => true
  | other => finishes other

def advanceTask (db : IngressCatalog Payload) (txn : IngressTransaction Payload) (task : Task)
    (outcome : SourcePublicationOutcome) (next : Option Nat) : Except Fault (IngressCatalog Payload) :=
  if decide (outcome = .appended) ≠ next.isSome then
    .error (.failed "source task cursor does not match publication outcome")
  else
    match requireCount (txn.publications.filter (atCursor task)).length 1 "source publication cursor compare-and-set" with
    | .error fault => .error fault
    | .ok () =>
        if finishes outcome ∧ txn.pendingPublications = 0 then
          .error (.failed "source publication pending counter returned 0 rows, expected 1")
        else .ok (db.updateTransaction txn.ingressTxnId (advanceHeader task (finishes outcome) next) (fun _ => rfl))

def hasPending (db : IngressCatalog Payload) (slotGeneration : Nat) : Bool :=
  db.transactions.rows.any fun txn => committedIn slotGeneration txn && decide (0 < txn.pendingPublications)

def publishTask (codec : RowCodec Payload Row) (db : SourceCatalog Payload Row) (replay : ReplayState)
    (txn : IngressTransaction Payload) (task : Task) :
    Except Fault (Table (EffectStream Row) EffectStream.streamId × SourcePublicationOutcome × Option Nat × Option Nat) :=
  match sourceStream db.streams replay.slotGeneration task.sourceOid with
  | none => .ok (db.streams, .discarded, none, none)
  | some stream =>
      if !hasEligibleConsumer stream task.finalLsn then .ok (db.streams, .discarded, none, none)
      else if stream.backpressured then .ok (db.streams, .blocked, none, none)
      else
        match appendTypedPrefix codec txn task stream replay.publishedLsn with
        | .error fault => .error fault
        | .ok (after, outcome, chunkSeq, next) =>
            .ok (storeStream db.streams stream.streamId after, outcome, chunkSeq, next)

def publishSourceBatch (codec : RowCodec Payload Row) (db : SourceCatalog Payload Row) (slotGeneration : Nat) :
    Except Fault (SourceCatalog Payload Row × SourcePublication) :=
  if slotGeneration = 0 then .error (.failed "source publication generation must be positive")
  else
  match db.ingress.activeReplay slotGeneration with
  | none => .error (.failed "active ingress generation returned 0 rows, expected 1")
  | some replay =>
  match chooseCandidate db slotGeneration with
  | none =>
      let waiting := hasPending db.ingress slotGeneration
      .ok (db, SourcePublication.withoutTask (if waiting then .blocked else .idle) waiting)
  | some candidate =>
  match lockTask db.ingress slotGeneration candidate with
  | .error fault => .error fault
  | .ok (txn, task) =>
  match publishTask codec db replay txn task with
  | .error fault => .error fault
  | .ok (streams, outcome, chunkSeq, next) =>
  match (if moves outcome then advanceTask db.ingress txn task outcome next else .ok db.ingress) with
  | .error fault => .error fault
  | .ok ingress =>
      .ok (⟨ingress, streams⟩,
        { outcome
          ingressTxnId := some task.ingressTxnId
          batchOrdinal := some task.batchOrdinal
          sourceOid := some task.sourceOid
          finalLsn := some task.finalLsn
          chunkSeq
          hasPending := hasPending ingress slotGeneration })

end Shiba.Publication
