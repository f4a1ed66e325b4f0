import Shiba.Library.SerialTable
import Shiba.Postgres

set_option autoImplicit false

namespace Shiba.Ingress

open SerialTable

inductive GenerationState where
  | active
  | retired
deriving DecidableEq, Repr

-- One row of ingress_replay_state.
structure ReplayState where
  slotGeneration : Nat
  slotName : String
  systemIdentifier : String
  slotBaselineLsn : Lsn
  state : GenerationState := .active
  persistedLsn : Option Lsn := none
  publishedLsn : Option Lsn := none
  confirmedLsn : Option Lsn := none
  replaySafeLsn : Option Lsn := none
  openPayloadBytes : Nat := 0
  postmasterStartedAt : Nat
deriving DecidableEq, Repr

-- `opened` is the status text 'open', which is a Lean keyword.
inductive TxnStatus where
  | opened
  | committed
  | aborted
deriving DecidableEq, Repr

def TxnStatus.text : TxnStatus → String
  | .opened => "open"
  | .committed => "committed"
  | .aborted => "aborted"

structure IngressEvent (Payload : Type) where
  changeLsn : Lsn
  changeOrdinal : Nat
  imageOrdinal : Nat
  sourceSubxid : Nat
  sourceOid : Oid
  weight : Int
  payload : Payload
deriving DecidableEq, Repr

-- A change_log row is the admitted event and its position in the transaction.
structure ChangeRow (Payload : Type) extends IngressEvent Payload where
  inputSeq : Nat
deriving DecidableEq, Repr

-- One row of source_publications; `none` is the NULL cursor of a finished task.
structure PublicationTask where
  batchOrdinal : Nat
  sourceOid : Oid
  firstInputSeq : Nat
  lastInputSeq : Nat
  nextInputSeq : Option Nat
deriving DecidableEq, Repr

def isPending (task : PublicationTask) : Bool := task.nextInputSeq.isSome

-- One row of ingress_transactions with the rows that reference it: change_log,
-- ingress_aborted_subtransactions and source_publications all cascade from it.
structure IngressTransaction (Payload : Type) where
  ingressTxnId : Nat
  slotGeneration : Nat
  sourceXid : Nat
  transactionStartLsn : Lsn
  status : TxnStatus := .opened
  finalLsn : Option Lsn := none
  commitLsn : Option Lsn := none
  endLsn : Option Lsn := none
  eventCount : Nat := 0
  payloadBytes : Nat := 0
  batchCount : Nat := 0
  pendingPublications : Nat := 0
  changeLog : List (ChangeRow Payload) := []
  abortedSubtransactions : List Nat := []
  publications : List PublicationTask := []
deriving DecidableEq, Repr

structure IngressCatalog (Payload : Type) where
  replayState : Table ReplayState ReplayState.slotGeneration
  transactions : Table (IngressTransaction Payload) IngressTransaction.ingressTxnId

variable {Payload : Type}

def emptyIngress : IngressCatalog Payload := ⟨Table.empty 1, Table.empty 1⟩

-- (change_lsn, change_ordinal, image_ordinal): the stable identity of an event.
def IngressEvent.identity (event : IngressEvent Payload) : Lsn × Nat × Nat :=
  (event.changeLsn, event.changeOrdinal, event.imageOrdinal)

-- (slot_generation, source_xid, transaction_start_lsn): the replay identity.
structure ReplayIdentity where
  slotGeneration : Nat
  sourceXid : Nat
  transactionStartLsn : Lsn
deriving DecidableEq, Repr

def IngressTransaction.identity (txn : IngressTransaction Payload) : ReplayIdentity :=
  ⟨txn.slotGeneration, txn.sourceXid, txn.transactionStartLsn⟩

namespace IngressCatalog

-- SELECT ... WHERE slot_generation = $1 AND state = 'active' FOR UPDATE.
def activeReplay (db : IngressCatalog Payload) (slotGeneration : Nat) : Option ReplayState :=
  (db.replayState.find? slotGeneration).filter fun replay => replay.state = .active

def updateReplay (db : IngressCatalog Payload) (slotGeneration : Nat) (change : ReplayState → ReplayState)
    (keeps : ∀ replay, (change replay).slotGeneration = replay.slotGeneration) : IngressCatalog Payload :=
  { db with replayState := db.replayState.update slotGeneration change keeps }

def updateTransaction (db : IngressCatalog Payload) (ingressTxnId : Nat)
    (change : IngressTransaction Payload → IngressTransaction Payload)
    (keeps : ∀ txn, (change txn).ingressTxnId = txn.ingressTxnId) : IngressCatalog Payload :=
  { db with transactions := db.transactions.update ingressTxnId change keeps }

def findTransaction (db : IngressCatalog Payload) (ingressTxnId : Nat) : Option (IngressTransaction Payload) :=
  db.transactions.find? ingressTxnId

def identified (db : IngressCatalog Payload) (identity : ReplayIdentity) : Option (IngressTransaction Payload) :=
  db.transactions.rows.find? fun txn => txn.identity = identity

variable (db : IngressCatalog Payload) (identity : ReplayIdentity) (slotGeneration : Nat)
  (change : ReplayState → ReplayState) (keeps : ∀ replay, (change replay).slotGeneration = replay.slotGeneration)

theorem active_replay_some (replay : ReplayState) (locked : db.activeReplay slotGeneration = some replay) :
    replay ∈ db.replayState.rows ∧ replay.slotGeneration = slotGeneration ∧ replay.state = .active := by
  obtain ⟨found, active⟩ := Option.filter_eq_some_iff.mp locked
  obtain ⟨member, same⟩ := db.replayState.mem_of_find _ _ found
  exact ⟨member, same, by simpa using active⟩

theorem identified_some (txn : IngressTransaction Payload) (found : db.identified identity = some txn) :
    txn ∈ db.transactions.rows ∧ txn.identity = identity :=
  ⟨List.mem_of_find?_eq_some found, by simpa using List.find?_some found⟩

theorem identified_none (absent : db.identified identity = none) (txn : IngressTransaction Payload)
    (member : txn ∈ db.transactions.rows) : txn.identity ≠ identity := by
  simpa using List.find?_eq_none.mp absent txn member

@[simp] theorem update_replay_transactions :
    (db.updateReplay slotGeneration change keeps).transactions = db.transactions := rfl

theorem mem_update_replay (row : ReplayState) :
    row ∈ (db.updateReplay slotGeneration change keeps).replayState.rows ↔
      (row ∈ db.replayState.rows ∧ row.slotGeneration ≠ slotGeneration) ∨
        ∃ before ∈ db.replayState.rows, before.slotGeneration = slotGeneration ∧ row = change before :=
  Table.mem_update db.replayState slotGeneration change keeps row

theorem mem_update_transaction (ingressTxnId : Nat) (change : IngressTransaction Payload → IngressTransaction Payload)
    (keeps : ∀ txn, (change txn).ingressTxnId = txn.ingressTxnId) (txn row : IngressTransaction Payload)
    (found : db.findTransaction ingressTxnId = some txn) :
    row ∈ (db.updateTransaction ingressTxnId change keeps).transactions.rows ↔
      (row ∈ db.transactions.rows ∧ row.ingressTxnId ≠ ingressTxnId) ∨ row = change txn := by
  obtain ⟨txnMember, named⟩ := db.transactions.mem_of_find _ _ found
  rw [updateTransaction, Table.mem_update]
  refine or_congr Iff.rfl ⟨?_, ?_⟩
  · rintro ⟨before, member, same, rfl⟩
    rw [db.transactions.row_unique before txn member txnMember (same.trans named.symm)]
  · rintro rfl
    exact ⟨txn, txnMember, named, rfl⟩

end IngressCatalog

end Shiba.Ingress
