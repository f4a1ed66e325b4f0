import Shiba.Ingress.Replay
import Shiba.Publication.Machine

set_option autoImplicit false

namespace Shiba.Publication

open SerialTable Transition Shiba.Ingress Shiba.Stream

variable {Payload Row : Type}

inductive IngressBoundary where
  | commit (commitLsn endLsn : Lsn)
  | abortTransaction (abortLsn : Lsn)
  | abortSubtransaction (sourceSubxid : Nat)
deriving DecidableEq, Repr

structure IngressBatch (Payload : Type) where
  sourceXid : Nat
  transactionStartLsn : Lsn
  events : List (IngressEvent Payload)
  boundary : Option IngressBoundary

def IngressBatch.identity (batch : IngressBatch Payload) (generation : Nat) : ReplayIdentity :=
  ⟨generation, batch.sourceXid, batch.transactionStartLsn⟩

def finishBatch (db : IngressCatalog Payload) (ingressTxnId : Nat) :
    Option IngressBoundary → Except Fault (IngressCatalog Payload)
  | some (.commit commitLsn endLsn) => (commitIngressTransaction db ingressTxnId commitLsn endLsn).map Prod.fst
  | some (.abortTransaction abortLsn) => (abortIngressTransaction db ingressTxnId abortLsn).map Prod.fst
  | some (.abortSubtransaction sourceSubxid) => (abortIngressSubtransaction db ingressTxnId sourceSubxid).map Prod.fst
  | none => .ok db

def persistIngressBatch [DecidableEq Payload] (codec : PayloadCodec Payload) (settings : AdmissionSettings Payload)
    (db : IngressCatalog Payload) (generation : Nat) (batch : IngressBatch Payload) :
    Except Fault (IngressCatalog Payload) := do
  let (db, transaction) ← claimIngressTransaction db (batch.identity generation)
  let (db, _) ← admitEvents codec settings db transaction.ingressTxnId batch.events
  finishBatch db transaction.ingressTxnId batch.boundary

-- The record that ends a source transaction.
inductive TxnEnd where
  | committed (commitLsn endLsn : Lsn)
  | aborted (abortLsn : Lsn)
deriving DecidableEq, Repr

def TxnEnd.recordLsn : TxnEnd → Lsn
  | .committed commitLsn _ => commitLsn
  | .aborted abortLsn => abortLsn

-- How each source transaction, named by its xid and first LSN, ends in the WAL.
-- One that a crash lost has no record. A commit record has a length.
structure SourceWal where
  ending : Nat → Lsn → Option TxnEnd
  nonempty : ∀ xid start commitLsn endLsn, ending xid start = some (.committed commitLsn endLsn) → commitLsn < endLsn

-- The Runtime's replication session: where it asked the server to start, and
-- the transactions whose end the server has sent since.
structure Session where
  generation : Nat
  startLsn : Lsn
  persistedLsn : Lsn
  ended : List (Nat × Lsn)

structure IngressWorld (Payload Row : Type) where
  catalog : SourceCatalog Payload Row
  session : Session
  slotBaselineLsn : Lsn
  confirmedFlushLsn : Lsn
  acknowledgedLsn : Lsn
  deleted : List (IngressTransaction Payload)

inductive Action (Payload : Type) where
  | deliver (settings : AdmissionSettings Payload) (batch : IngressBatch Payload)
  | publish
  | advanceFrontier
  | stream (call : StreamCall)
  | acknowledge (lsn : Lsn)
  | recordFeedback (lsn : Lsn)
  | confirm (lsn : Lsn)
  | reconcileReplaySafe
  | collect (due : Nat → Bool) (maxTransactions : Nat)
  | restart (server : ServerFacts)

-- The boundary the server sends is the transaction's own end.
def announces (ending : Option TxnEnd) : Option IngressBoundary → Bool
  | some (.commit commitLsn endLsn) => decide (ending = some (.committed commitLsn endLsn))
  | some (.abortTransaction abortLsn) => decide (ending = some (.aborted abortLsn))
  | some (.abortSubtransaction _) => true
  | none => true

-- In one session the server sends a transaction until its end, and none whose
-- record lies before the start it was asked for. The slot decodes nothing from
-- before its own baseline.
def sends (wal : SourceWal) (baseline : Lsn) (session : Session) (batch : IngressBatch Payload) : Bool :=
  let ending := wal.ending batch.sourceXid batch.transactionStartLsn
  (ending.all fun record => decide (session.startLsn ≤ record.recordLsn) && decide (baseline ≤ record.recordLsn))
    && decide ((batch.sourceXid, batch.transactionStartLsn) ∉ session.ended)
    && announces ending batch.boundary

def Session.after (session : Session) (batch : IngressBatch Payload) : Session :=
  match batch.boundary with
  | some (.commit _ endLsn) =>
      { session with
        persistedLsn := max session.persistedLsn endLsn
        ended := session.ended ++ [(batch.sourceXid, batch.transactionStartLsn)] }
  | some (.abortTransaction _) =>
      { session with ended := session.ended ++ [(batch.sourceXid, batch.transactionStartLsn)] }
  | some (.abortSubtransaction _) => session
  | none => session

def IngressWorld.slot (world : IngressWorld Payload Row) : Option LogicalSlot :=
  some ⟨true, true, some world.confirmedFlushLsn⟩

def withIngress (world : IngressWorld Payload Row) (ingress : IngressCatalog Payload) : IngressWorld Payload Row :=
  { world with catalog := ⟨ingress, world.catalog.streams⟩ }

def bootstrapIngress (db : IngressCatalog Payload) (server : ServerFacts) (slot : Option LogicalSlot) (slotName : String) :
    Except Fault (IngressCatalog Payload × Session) := do
  let (db, generation) ← ensureIngressGeneration db server slot slotName false
  let (db, _) ← reconcilePostmasterRestart db server generation
  match db.activeReplay generation with
  | none => .error (.failed "ingress generation has no durable feedback state")
  | some replay => .ok (db, ⟨generation, replay.persistedLsn.getD 0, replay.persistedLsn.getD 0, []⟩)

def impossible : Fault := .failed "the server does not do this"

section Machine

variable [DecidableEq Payload] (codec : PayloadCodec Payload) (rowCodec : RowCodec Payload Row) (slotName : String)
  (wal : SourceWal)

def act (world : IngressWorld Payload Row) : Action Payload → Except Fault (IngressWorld Payload Row)
  | .deliver settings batch =>
      if sends wal world.slotBaselineLsn world.session batch then do
        let ingress ← persistIngressBatch codec settings world.catalog.ingress world.session.generation batch
        return { withIngress world ingress with session := world.session.after batch }
      else .error impossible
  | .publish => do
      let (catalog, _) ← publishSourceBatch rowCodec world.catalog world.session.generation
      return { world with catalog := catalog }
  | .advanceFrontier => do
      let (ingress, _) ← advanceIngressPublicationFrontier world.catalog.ingress world.session.generation
      return withIngress world ingress
  | .stream call => do
      let catalog ← streamStep world.catalog call
      return { world with catalog := catalog }
  | .acknowledge lsn =>
      if lsn ≤ world.session.persistedLsn then .ok { world with acknowledgedLsn := max world.acknowledgedLsn lsn }
      else .error impossible
  | .recordFeedback lsn =>
      if lsn = 0 ∨ world.acknowledgedLsn < lsn then .error impossible
      else do
        let (ingress, _) ← recordIngressFeedback world.catalog.ingress world.session.generation lsn
        return withIngress world ingress
  | .confirm lsn =>
      if lsn = world.slotBaselineLsn ∨ (world.slotBaselineLsn ≤ lsn ∧ lsn ≤ world.acknowledgedLsn) then
        .ok { world with confirmedFlushLsn := lsn }
      else .error impossible
  | .reconcileReplaySafe => do
      let (ingress, _) ← reconcileIngressReplaySafe world.catalog.ingress world.slot world.session.generation
      return withIngress world ingress
  | .collect due maxTransactions => do
      let (ingress, _) ← gcChangeLog world.catalog.ingress due maxTransactions
      return { withIngress world ingress with
        deleted := world.deleted ++ garbage world.catalog.ingress due maxTransactions }
  | .restart server => do
      let (ingress, session) ← bootstrapIngress world.catalog.ingress server world.slot slotName
      return { withIngress world ingress with session := session }

-- A generation that was just created for the slot.
def installed (server : ServerFacts) (baseline : Lsn) : IngressWorld Payload Row :=
  { catalog := ⟨openGeneration emptyIngress server slotName baseline, Table.empty 1⟩
    session := ⟨1, 0, 0, []⟩
    slotBaselineLsn := baseline
    confirmedFlushLsn := baseline
    acknowledgedLsn := 0
    deleted := [] }

end Machine

end Shiba.Publication
