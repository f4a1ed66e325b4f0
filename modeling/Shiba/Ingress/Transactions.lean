import Shiba.Ingress.Catalog

set_option autoImplicit false

namespace Shiba.Ingress

open SerialTable

variable {Payload : Type}

-- The row ensure_ingress_generation reads from pg_replication_slots.
structure LogicalSlot where
  ownDatabase : Bool
  pgoutput : Bool
  confirmedFlushLsn : Option Lsn

structure ServerFacts where
  systemIdentifier : String
  postmasterStartTime : Nat

def slotMismatch (server : ServerFacts) (replay : ReplayState) (confirmed : Lsn) : Bool :=
  replay.systemIdentifier ≠ server.systemIdentifier
    || confirmed < replay.slotBaselineLsn
    || (match replay.persistedLsn with
        | none => confirmed ≠ replay.slotBaselineLsn
        | some persisted => persisted < confirmed)

def freshReplay (server : ServerFacts) (slotName : String) (baseline : Lsn) (slotGeneration : Nat) : ReplayState :=
  { slotGeneration, slotName, systemIdentifier := server.systemIdentifier, slotBaselineLsn := baseline,
    postmasterStartedAt := server.postmasterStartTime }

def openGeneration (db : IngressCatalog Payload) (server : ServerFacts) (slotName : String) (baseline : Lsn) :
    IngressCatalog Payload :=
  { db with replayState := db.replayState.insert (freshReplay server slotName baseline) (fun _ => rfl) }

def insertGeneration (db : IngressCatalog Payload) (server : ServerFacts) (slotName : String) (baseline : Lsn) :
    Except Fault (IngressCatalog Payload × Nat) :=
  if bigintMax < db.replayState.next then
    .error (.raised "22003" "ingress slot generation exhausted bigint range")
  else
    .ok (openGeneration db server slotName baseline, db.replayState.next)

def retireReplay (replay : ReplayState) : ReplayState := { replay with state := .retired }

-- The next key stands for max(slot_generation) + 1.
def ensureIngressGeneration (db : IngressCatalog Payload) (server : ServerFacts) (slot : Option LogicalSlot)
    (slotName : String) (forceNew : Bool) : Except Fault (IngressCatalog Payload × Nat) :=
  if slotName.isEmpty then .error (.raised "22023" "ingress slot name must not be NULL or empty")
  else
    match (slot.filter fun found => found.ownDatabase && found.pgoutput).bind LogicalSlot.confirmedFlushLsn with
    | none =>
        .error (.raised "55000"
          s!"logical slot {slotName} is absent or is not this database's pgoutput slot")
    | some confirmed =>
        match db.replayState.rows.find? (fun replay => replay.slotName = slotName ∧ replay.state = .active) with
        | none => insertGeneration db server slotName confirmed
        | some replay =>
            if forceNew then
              insertGeneration (db.updateReplay replay.slotGeneration retireReplay (fun _ => rfl))
                server slotName confirmed
            else if slotMismatch server replay confirmed then
              .error (.raised "55000"
                s!"logical slot {slotName} no longer matches durable ingress generation {replay.slotGeneration}")
            else .ok (db, replay.slotGeneration)

def retireIngressGeneration (db : IngressCatalog Payload) (slotName : String) : IngressCatalog Payload :=
  let current := fun replay : ReplayState => decide (replay.slotName = slotName ∧ replay.state = .active)
  { db with replayState := db.replayState.updateWhere current retireReplay (fun _ => rfl) }

structure ClaimedTransaction where
  ingressTxnId : Nat
  txnStatus : TxnStatus
  eventCount : Nat
  payloadBytes : Nat
  created : Bool
deriving DecidableEq, Repr

def claimed (txn : IngressTransaction Payload) (created : Bool) : ClaimedTransaction :=
  ⟨txn.ingressTxnId, txn.status, txn.eventCount, txn.payloadBytes, created⟩

def freshTransaction (identity : ReplayIdentity) (ingressTxnId : Nat) : IngressTransaction Payload :=
  { ingressTxnId, slotGeneration := identity.slotGeneration, sourceXid := identity.sourceXid,
    transactionStartLsn := identity.transactionStartLsn }

def openTransaction (db : IngressCatalog Payload) (identity : ReplayIdentity) : IngressCatalog Payload :=
  { db with transactions := db.transactions.insert (freshTransaction identity) (fun _ => rfl) }

-- ON CONFLICT names only the identity index; the partial unique index on open
-- transactions still rejects a second open header of the same source xid.
def claimIngressTransaction (db : IngressCatalog Payload) (identity : ReplayIdentity) :
    Except Fault (IngressCatalog Payload × ClaimedTransaction) :=
  match db.activeReplay identity.slotGeneration with
  | none =>
      .error (.raised "55000"
        s!"ingress slot generation {identity.slotGeneration} is absent, inactive, or belongs to another database")
  | some _ =>
      if xidMax < identity.sourceXid then .error (.constraint "ingress_transactions_source_xid_check")
      else
        match db.identified identity with
        | some txn => .ok (db, claimed txn false)
        | none =>
            if db.transactions.rows.any (fun txn => txn.slotGeneration = identity.slotGeneration
                && txn.sourceXid = identity.sourceXid && txn.status = .opened) then
              .error (.constraint "ingress_open_txn_idx")
            else
              let created : IngressTransaction Payload := freshTransaction identity db.transactions.next
              .ok (openTransaction db identity, claimed created true)

def noTransaction : Fault := .raised "P0002" "query returned no rows"

def inactiveGeneration (slotGeneration : Nat) : Fault :=
  .raised "55000" s!"ingress slot generation {slotGeneration} is not active"

-- Lock-order levels 1 then 2, shared by commit, abort and subtransaction abort.
def lockTransaction (db : IngressCatalog Payload) (ingressTxnId : Nat) :
    Except Fault (ReplayState × IngressTransaction Payload) :=
  match db.findTransaction ingressTxnId with
  | none => .error noTransaction
  | some txn =>
      match db.activeReplay txn.slotGeneration with
      | none => .error (inactiveGeneration txn.slotGeneration)
      | some replay => .ok (replay, txn)

def sealCommitted (commitLsn endLsn : Lsn) (txn : IngressTransaction Payload) : IngressTransaction Payload :=
  { txn with status := .committed, finalLsn := some commitLsn, commitLsn := some commitLsn, endLsn := some endLsn }

def sealAborted (abortLsn : Lsn) (txn : IngressTransaction Payload) : IngressTransaction Payload :=
  { txn with status := .aborted, finalLsn := some abortLsn, endLsn := some abortLsn, pendingPublications := 0 }

def releasePayload (bytes : Nat) (replay : ReplayState) : ReplayState :=
  { replay with openPayloadBytes := replay.openPayloadBytes - bytes }

def persistThrough (endLsn : Lsn) (replay : ReplayState) : ReplayState :=
  { replay with persistedLsn := some (greatestLsn replay.persistedLsn endLsn) }

structure CommitFacts where
  finalized : Bool
  eventCount : Nat
  payloadBytes : Nat
deriving DecidableEq, Repr

-- Header sealing and the persisted watermark commit or roll back together.
def commitIngressTransaction (db : IngressCatalog Payload) (ingressTxnId : Nat) (commitLsn endLsn : Lsn) :
    Except Fault (IngressCatalog Payload × CommitFacts) :=
  match lockTransaction db ingressTxnId with
  | .error fault => .error fault
  | .ok (replay, txn) =>
      if endLsn < commitLsn then
        .error (.raised "22023" s!"invalid commit/end LSNs {formatLsn commitLsn}/{formatLsn endLsn}")
      else
        match txn.status with
        | .committed =>
            if txn.commitLsn ≠ some commitLsn ∨ txn.endLsn ≠ some endLsn then
              .error (.raised "XX001" s!"ingress commit identity conflict for transaction {ingressTxnId}")
            else
              .ok (db.updateReplay txn.slotGeneration (persistThrough endLsn) (fun _ => rfl),
                ⟨false, txn.eventCount, txn.payloadBytes⟩)
        | .opened =>
            if db.transactions.rows.any (fun other => other.status = .committed ∧ other.commitLsn = some commitLsn) then
              .error (.constraint "ingress_commit_lsn_idx")
            else if replay.openPayloadBytes < txn.payloadBytes then
              .error (.raised "XX001" "open ingress payload counter is smaller than committed transaction")
            else
              .ok ((db.updateTransaction ingressTxnId (sealCommitted commitLsn endLsn) (fun _ => rfl)).updateReplay
                  txn.slotGeneration (fun row => persistThrough endLsn (releasePayload txn.payloadBytes row)) (fun _ => rfl),
                ⟨true, txn.eventCount, txn.payloadBytes⟩)
        | .aborted =>
            .error (.raised "XX001"
              s!"cannot commit ingress transaction {ingressTxnId} in state {txn.status.text}")

-- An aborted header accepts its own abort LSN, and any abort LSN once crash
-- reconciliation has sealed it at its transaction start.
def abortIngressTransaction (db : IngressCatalog Payload) (ingressTxnId : Nat) (abortLsn : Lsn) :
    Except Fault (IngressCatalog Payload × Bool) :=
  match lockTransaction db ingressTxnId with
  | .error fault => .error fault
  | .ok (replay, txn) =>
      match txn.status with
      | .aborted =>
          if txn.finalLsn ≠ some abortLsn ∧ txn.finalLsn ≠ some txn.transactionStartLsn then
            .error (.raised "XX001" s!"ingress abort identity conflict for transaction {ingressTxnId}")
          else .ok (db, false)
      | .opened =>
          if replay.openPayloadBytes < txn.payloadBytes then
            .error (.raised "XX001" "open ingress payload counter is smaller than aborted transaction")
          else
            .ok ((db.updateTransaction ingressTxnId (sealAborted abortLsn) (fun _ => rfl)).updateReplay
                txn.slotGeneration (releasePayload txn.payloadBytes) (fun _ => rfl), true)
      | .committed =>
          .error (.raised "XX001" s!"cannot abort ingress transaction {ingressTxnId} in state {txn.status.text}")

-- Crash recovery gives no abort LSN, so the transaction start stands for it.
def sealLost (txn : IngressTransaction Payload) : IngressTransaction Payload :=
  sealAborted txn.transactionStartLsn txn

def isOpenIn (slotGeneration : Nat) (txn : IngressTransaction Payload) : Bool :=
  txn.slotGeneration = slotGeneration ∧ txn.status = .opened

def restartEpoch (server : ServerFacts) (replay : ReplayState) : ReplayState :=
  { replay with postmasterStartedAt := server.postmasterStartTime, openPayloadBytes := 0 }

def abortLost (db : IngressCatalog Payload) (server : ServerFacts) (slotGeneration : Nat) : IngressCatalog Payload :=
  { replayState := db.replayState.update slotGeneration (restartEpoch server) (fun _ => rfl)
    transactions := db.transactions.updateWhere (isOpenIn slotGeneration) sealLost (fun _ => rfl) }

def reconcilePostmasterRestart (db : IngressCatalog Payload) (server : ServerFacts) (slotGeneration : Nat) :
    Except Fault (IngressCatalog Payload × Nat) :=
  match db.activeReplay slotGeneration with
  | none => .error noTransaction
  | some replay =>
      if replay.postmasterStartedAt = server.postmasterStartTime then .ok (db, 0)
      else
        .ok (abortLost db server slotGeneration, db.transactions.rows.countP (isOpenIn slotGeneration))

def recordSubtransactionAbort (sourceSubxid : Nat) (txn : IngressTransaction Payload) : IngressTransaction Payload :=
  if sourceSubxid ∈ txn.abortedSubtransactions then txn
  else { txn with abortedSubtransactions := txn.abortedSubtransactions ++ [sourceSubxid] }

theorem record_subtransaction_id (sourceSubxid : Nat) (txn : IngressTransaction Payload) :
    (recordSubtransactionAbort sourceSubxid txn).ingressTxnId = txn.ingressTxnId := by
  unfold recordSubtransactionAbort
  split <;> rfl

def abortIngressSubtransaction (db : IngressCatalog Payload) (ingressTxnId sourceSubxid : Nat) :
    Except Fault (IngressCatalog Payload × Bool) :=
  match lockTransaction db ingressTxnId with
  | .error fault => .error fault
  | .ok (_, txn) =>
      if txn.status ≠ .opened then
        .error (.raised "55000"
          s!"cannot record a subtransaction abort for ingress transaction {ingressTxnId} in state {txn.status.text}")
      else if xidMax < sourceSubxid then
        .error (.constraint "ingress_aborted_subtransactions_source_subxid_check")
      else
        .ok (db.updateTransaction ingressTxnId (recordSubtransactionAbort sourceSubxid)
            (record_subtransaction_id sourceSubxid),
          decide (sourceSubxid ∉ txn.abortedSubtransactions))

-- final_lsn IS NOT NULL AND (current IS NULL OR final_lsn > current).
def isAhead (slotGeneration : Nat) (current : Option Lsn) (txn : IngressTransaction Payload) : Bool :=
  txn.slotGeneration = slotGeneration
    && (match txn.finalLsn with
        | none => false
        | some lsn => !reachedBy current lsn)

-- ORDER BY final_lsn, ingress_txn_id.
def frontierKey (txn : IngressTransaction Payload) : Nat ×ₗ Nat :=
  toLex (txn.finalLsn.getD 0, txn.ingressTxnId)

def nextSealed (db : IngressCatalog Payload) (slotGeneration : Nat) (current : Option Lsn) :
    Option (IngressTransaction Payload) :=
  (db.transactions.rows.filter (isAhead slotGeneration current)).argmin frontierKey

def publishThrough (lsn : Lsn) (replay : ReplayState) : ReplayState := { replay with publishedLsn := some lsn }

-- The first sealed header above the frontier, when it may become the frontier.
def advanceTarget (db : IngressCatalog Payload) (replay : ReplayState) : Option Lsn :=
  match nextSealed db replay.slotGeneration replay.publishedLsn with
  | none => none
  | some txn =>
      if txn.status = .opened ∨ txn.pendingPublications ≠ 0 then none
      else txn.finalLsn.filter fun lsn => reachedBy replay.persistedLsn lsn

def advanceIngressPublicationFrontier (db : IngressCatalog Payload) (slotGeneration : Nat) :
    Except Fault (IngressCatalog Payload × Option Lsn) :=
  match db.activeReplay slotGeneration with
  | none => .error noTransaction
  | some replay =>
      match advanceTarget db replay with
      | none => .ok (db, replay.publishedLsn)
      | some lsn => .ok (db.updateReplay slotGeneration (publishThrough lsn) (fun _ => rfl), some lsn)

end Shiba.Ingress
