import Shiba.Library.Transition
import Shiba.Publication.Effects

set_option autoImplicit false

namespace Shiba.Publication

open SerialTable Transition Shiba.Ingress Shiba.Stream

variable {Payload Row : Type}

-- Every committed call on the ingress tables. The two admission settings and
-- the server facts belong to the call, since they may change between calls.
inductive IngressCall (Payload : Type) where
  | ensureGeneration (server : ServerFacts) (slot : Option LogicalSlot) (slotName : String) (forceNew : Bool)
  | retireGeneration (slotName : String)
  | claim (identity : ReplayIdentity)
  | admitted (settings : AdmissionSettings Payload) (ingressTxnId : Nat) (events : List (IngressEvent Payload))
  | commit (ingressTxnId : Nat) (commitLsn endLsn : Lsn)
  | abort (ingressTxnId : Nat) (abortLsn : Lsn)
  | abortSubtransaction (ingressTxnId sourceSubxid : Nat)
  | reconcile (server : ServerFacts) (slotGeneration : Nat)
  | advanceFrontier (slotGeneration : Nat)

-- Registration, operator steps and garbage collection, as a source stream sees them.
inductive StreamCall where
  | ensureSource (slotGeneration : Nat) (sourceOid : Oid) (targetRows targetBytes : Nat)
  | attach (streamId : Nat) (registered : Bool) (consumer : ConsumerKey) (activationLsn : Lsn)
  | advance (streamId : Nat) (consumer : ConsumerKey) (move : ConsumerAdvance)
  | dropResult (resultOid : Oid)
  | collect (streamId chunkLimit rowLimit byteLimit : Nat)

inductive Call (Payload : Type) where
  | ingress (call : IngressCall Payload)
  | publish (slotGeneration : Nat)
  | stream (call : StreamCall)

def ingressStep [DecidableEq Payload] (codec : PayloadCodec Payload) (db : IngressCatalog Payload) :
    IngressCall Payload → Except Fault (IngressCatalog Payload)
  | .ensureGeneration server slot slotName forceNew =>
      (ensureIngressGeneration db server slot slotName forceNew).map Prod.fst
  | .retireGeneration slotName => .ok (retireIngressGeneration db slotName)
  | .claim identity => (claimIngressTransaction db identity).map Prod.fst
  | .admitted settings ingressTxnId events => (admitEvents codec settings db ingressTxnId events).map Prod.fst
  | .commit ingressTxnId commitLsn endLsn => (commitIngressTransaction db ingressTxnId commitLsn endLsn).map Prod.fst
  | .abort ingressTxnId abortLsn => (abortIngressTransaction db ingressTxnId abortLsn).map Prod.fst
  | .abortSubtransaction ingressTxnId sourceSubxid =>
      (abortIngressSubtransaction db ingressTxnId sourceSubxid).map Prod.fst
  | .reconcile server slotGeneration => (reconcilePostmasterRestart db server slotGeneration).map Prod.fst
  | .advanceFrontier slotGeneration => (advanceIngressPublicationFrontier db slotGeneration).map Prod.fst

def sourceLimits (targetRows targetBytes : Nat) : Except Fault StreamLimits :=
  if bigintMax < targetRows * 8 then .error (.failed "source high row watermark exceeds bigint")
  else if bigintMax < targetBytes * 8 then .error (.failed "source high byte watermark exceeds bigint")
  else .ok ⟨targetRows, targetBytes, 8, targetRows * 8, targetBytes * 8, 2, targetRows * 2, targetBytes * 2⟩

-- INSERT ... ON CONFLICT DO NOTHING on (slot_generation, source_oid).
def ensureSourceStream (db : SourceCatalog Payload Row) (slotGeneration : Nat) (sourceOid : Oid)
    (targetRows targetBytes : Nat) : Except Fault (SourceCatalog Payload Row × Nat) :=
  match sourceLimits targetRows targetBytes with
  | .error fault => .error fault
  | .ok limits =>
      if targetRows = 0 ∨ targetBytes = 0 ∨ sourceOid = 0 then .error (.constraint "effect_streams_check")
      else if db.ingress.replayState.find? slotGeneration = none then
        .error (.constraint "effect_streams_slot_generation_fkey")
      else
        match sourceStream db.streams slotGeneration sourceOid with
        | some stream => .ok (db, stream.streamId)
        | none =>
            let fresh := fun streamId =>
              ({ limits with streamId, producer := .source slotGeneration sourceOid } : EffectStream Row)
            .ok (⟨db.ingress, db.streams.insert fresh (fun _ => rfl)⟩, db.streams.next)

def onStream (db : SourceCatalog Payload Row) (streamId : Nat)
    (change : EffectStream Row → Except Fault (EffectStream Row)) : Except Fault (SourceCatalog Payload Row) :=
  (db.streams.find? streamId).elim (.error noTransaction) fun stream =>
    (change stream).map fun after => ⟨db.ingress, storeStream db.streams streamId after⟩

def generationPublished (db : IngressCatalog Payload) (producer : Producer) : Option Lsn :=
  match producer with
  | .source slotGeneration _ => (db.replayState.find? slotGeneration).bind ReplayState.publishedLsn
  | .operator _ _ => none

def fedElsewhere (db : SourceCatalog Payload Row) (streamId : Nat) (consumer : ConsumerKey) : Bool :=
  db.streams.rows.any fun stream => decide (stream.streamId ≠ streamId) && (stream.findConsumer consumer).isSome

def streamStep (db : SourceCatalog Payload Row) : StreamCall → Except Fault (SourceCatalog Payload Row)
  | .ensureSource slotGeneration sourceOid targetRows targetBytes =>
      (ensureSourceStream db slotGeneration sourceOid targetRows targetBytes).map Prod.fst
  | .attach streamId registered consumer activationLsn =>
      onStream db streamId fun stream =>
        attachEffectStreamConsumer stream ⟨registered, fedElsewhere db streamId consumer⟩ consumer activationLsn
  | .advance streamId consumer move =>
      onStream db streamId fun stream =>
        advanceEffectStreamConsumer stream (generationPublished db.ingress stream.producer) consumer move
  | .dropResult resultOid =>
      .ok ⟨db.ingress, db.streams.updateWhere (fun _ => true) (dropResult resultOid) (fun _ => rfl)⟩
  | .collect streamId chunkLimit rowLimit byteLimit =>
      onStream db streamId fun stream => gcEffectStream stream chunkLimit rowLimit byteLimit

def step [DecidableEq Payload] (codec : PayloadCodec Payload) (rowCodec : RowCodec Payload Row)
    (db : SourceCatalog Payload Row) : Call Payload → Except Fault (SourceCatalog Payload Row)
  | .ingress call => (ingressStep codec db.ingress call).map fun ingress => ⟨ingress, db.streams⟩
  | .publish slotGeneration => (publishSourceBatch rowCodec db slotGeneration).map Prod.fst
  | .stream call => streamStep db call

def emptyCatalog : SourceCatalog Payload Row := ⟨emptyIngress, Table.empty 1⟩

-- A call that fails is rolled back with its transaction.
def afterCalls [DecidableEq Payload] (codec : PayloadCodec Payload) (rowCodec : RowCodec Payload Row)
    (calls : List (Call Payload)) : SourceCatalog Payload Row :=
  attempts (step codec rowCodec) emptyCatalog calls

-- Numbers as payloads and rows, each as long as it is big.
def numberPayload : PayloadCodec Nat := ⟨id, fun _ => true⟩

def numberRow : RowCodec Nat Nat := ⟨fun _ payload => .ok payload, id⟩

def anySource : AdmissionSettings Nat := ⟨bigintMax, fun _ _ => true⟩

def insertion (changeLsn : Lsn) (sourceSubxid : Nat) (sourceOid : Oid) (payload : Nat) : IngressEvent Nat :=
  ⟨changeLsn, 0, 0, sourceSubxid, sourceOid, 1, payload⟩

def firstGeneration : Call Nat :=
  .ingress (.ensureGeneration ⟨"7", 1⟩ (some ⟨true, true, some 1⟩) "shiba" false)

end Shiba.Publication
