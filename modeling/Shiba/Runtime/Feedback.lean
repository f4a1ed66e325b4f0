import Shiba.Publication.Delivery

set_option autoImplicit false

namespace Shiba.Runtime

open Shiba.Ingress Shiba.Publication

variable {Payload Row : Type}

-- Nanoseconds, as Instants are here: REPLICATION_STATUS_INTERVAL is 250 ms.
def replicationStatusInterval : Nat := 250000000

inductive WriteStatus where
  | flushed
  | pendingFlush
  | wouldBlock
deriving DecidableEq, Repr

structure FeedbackState where
  recordedFeedbackLsn : Lsn
  pendingFeedback : Option Lsn
  queuedFeedback : Option Lsn
  lastStatusUpdate : Nat
deriving DecidableEq, Repr

namespace FeedbackState

def queue (state : FeedbackState) (feedbackLsn : Lsn) : FeedbackState :=
  { state with pendingFeedback := some (match state.pendingFeedback with
      | none => feedbackLsn
      | some pending => max pending feedbackLsn) }

def advanceRecordedFeedback (state : FeedbackState) (feedbackLsn : Lsn) : FeedbackState × Option Lsn :=
  if feedbackLsn = 0 ∨ feedbackLsn ≤ state.recordedFeedbackLsn then (state, none)
  else ({ state with recordedFeedbackLsn := feedbackLsn }, some feedbackLsn)

end FeedbackState

inductive FeedbackOperation where
  | flushQueued
  | sendPending
deriving DecidableEq, Repr

structure FeedbackTransition where
  state : FeedbackState
  catalogRecord : Option Lsn
deriving DecidableEq, Repr

def replicationStatusDue (lastStatusUpdate now : Nat) (replyRequested : Bool) : Bool :=
  replyRequested || decide (replicationStatusInterval ≤ now - lastStatusUpdate)

def feedbackLsnOf (state : FeedbackState) : FeedbackOperation → Except Fault Lsn
  | .flushQueued =>
      match state.queuedFeedback with
      | none => .error (.failed "feedback reducer cannot flush an empty queue")
      | some lsn => .ok lsn
  | .sendPending => do
      refuse state.queuedFeedback.isSome "feedback reducer cannot send behind an unflushed status"
      match state.pendingFeedback with
      | none => .error (.failed "feedback reducer cannot send empty pending feedback")
      | some lsn => .ok lsn

-- A panic of the source is an error here.
def reduceFeedback (state : FeedbackState) (operation : FeedbackOperation) (status : WriteStatus) (now : Nat) :
    Except Fault FeedbackTransition := do
  let feedbackLsn ← feedbackLsnOf state operation
  match operation, status with
  | .flushQueued, .flushed =>
      let (state, catalogRecord) := { state with queuedFeedback := none }.advanceRecordedFeedback feedbackLsn
      return ⟨state, catalogRecord⟩
  | .flushQueued, .pendingFlush => return ⟨state, none⟩
  | .flushQueued, .wouldBlock => .error (.failed "libpq flush returned an impossible WouldBlock status")
  | .sendPending, .flushed =>
      let (state, catalogRecord) :=
        { state with pendingFeedback := none, lastStatusUpdate := now }.advanceRecordedFeedback feedbackLsn
      return ⟨state, catalogRecord⟩
  | .sendPending, .pendingFlush =>
      return ⟨{ state with pendingFeedback := none, queuedFeedback := some feedbackLsn, lastStatusUpdate := now }, none⟩
  | .sendPending, .wouldBlock => return ⟨state, none⟩

-- What the feedback path did, in order, with the durable persisted_lsn of the
-- generation beside every LSN that was handed over or recorded.
inductive FeedbackEvent where
  | queued (lsn : Lsn)
  | handed (lsn persisted : Lsn)
  | flushed (lsn : Lsn)
  | recorded (lsn persisted : Lsn)
deriving DecidableEq, Repr

-- IngressRuntime beside the catalog it writes to.
structure FeedbackWorld (Payload Row : Type) where
  catalog : SourceCatalog Payload Row
  generation : Nat
  persistedLsn : Lsn
  feedback : FeedbackState
  events : List FeedbackEvent

def durableLsn (db : IngressCatalog Payload) (generation : Nat) : Lsn :=
  ((db.activeReplay generation).bind ReplayState.persistedLsn).getD 0

namespace FeedbackWorld

def log (world : FeedbackWorld Payload Row) (event : FeedbackEvent) : FeedbackWorld Payload Row :=
  { world with events := world.events ++ [event] }

def durable (world : FeedbackWorld Payload Row) : Lsn := durableLsn world.catalog.ingress world.generation

def withIngress (world : FeedbackWorld Payload Row) (ingress : IngressCatalog Payload) : FeedbackWorld Payload Row :=
  { world with catalog := ⟨ingress, world.catalog.streams⟩ }

-- feedback.queue(persisted_lsn).
def queue (world : FeedbackWorld Payload Row) : FeedbackWorld Payload Row :=
  { world with feedback := world.feedback.queue world.persistedLsn }.log (.queued world.persistedLsn)

def applyFeedbackTransition (world : FeedbackWorld Payload Row) (transition : FeedbackTransition) :
    Except Fault (FeedbackWorld Payload Row) :=
  match transition.catalogRecord with
  | none => .ok { world with feedback := transition.state }
  | some lsn => do
      let (ingress, _) ← recordIngressFeedback world.catalog.ingress world.generation lsn
      return { (world.withIngress ingress).log (.recorded lsn world.durable) with feedback := transition.state }

-- One operation of libpq on an LSN, with the status it came back with.
def perform (world : FeedbackWorld Payload Row) (operation : FeedbackOperation) (lsn : Lsn) (status : WriteStatus)
    (now : Nat) : Except Fault (FeedbackWorld Payload Row) := do
  let transition ← reduceFeedback world.feedback operation status now
  let world := if status = .flushed then world.log (.flushed lsn) else world
  world.applyFeedbackTransition transition

-- Whatever was queued is flushed first; nothing is sent while it is not.
def flushQueued (world : FeedbackWorld Payload Row) (now : Nat) (flush : WriteStatus) :
    Except Fault (FeedbackWorld Payload Row × Bool) :=
  match world.feedback.queuedFeedback with
  | none => .ok (world, true)
  | some lsn => do
      let world ← world.perform .flushQueued lsn flush now
      return (world, decide (flush = .flushed))

def sendPending (world : FeedbackWorld Payload Row) (now : Nat) (send : WriteStatus) :
    Except Fault (FeedbackWorld Payload Row) :=
  match world.feedback.pendingFeedback with
  | none => .ok world
  | some lsn => (world.log (.handed lsn world.durable)).perform .sendPending lsn send now

-- `flush` and `send` are what libpq reports, where it is asked.
def maintainFeedback (world : FeedbackWorld Payload Row) (now : Nat) (replyRequested : Bool) (flush send : WriteStatus) :
    Except Fault (FeedbackWorld Payload Row) := do
  let (world, sends) ← world.flushQueued now flush
  if sends then
    let world := if replicationStatusDue world.feedback.lastStatusUpdate now replyRequested then world.queue else world
    world.sendPending now send
  else return world

end FeedbackWorld

-- What else the Runtime and the other backends do to the catalog meanwhile.
inductive CatalogCall where
  | publish
  | advanceFrontier
  | reconcileReplaySafe (slot : Option LogicalSlot)
  | collect (due : Nat → Bool) (maxTransactions : Nat)
  | stream (call : StreamCall)

inductive FeedbackAction (Payload : Type) where
  | persist (settings : AdmissionSettings Payload) (batch : IngressBatch Payload) (now : Nat) (flush send : WriteStatus)
  | heartbeat (now : Nat) (flush send : WriteStatus)
  | replyRequested (now : Nat) (flush send : WriteStatus)
  | catalog (call : CatalogCall)

section Machine

variable [DecidableEq Payload] (codec : PayloadCodec Payload) (rowCodec : RowCodec Payload Row)

def catalogCall (db : SourceCatalog Payload Row) (generation : Nat) : CatalogCall → Except Fault (SourceCatalog Payload Row)
  | .publish => (publishSourceBatch rowCodec db generation).map Prod.fst
  | .advanceFrontier =>
      (advanceIngressPublicationFrontier db.ingress generation).map fun result => ⟨result.1, db.streams⟩
  | .reconcileReplaySafe slot =>
      (reconcileIngressReplaySafe db.ingress slot generation).map fun result => ⟨result.1, db.streams⟩
  | .collect due maxTransactions => (gcChangeLog db.ingress due maxTransactions).map fun result => ⟨result.1, db.streams⟩
  | .stream call => streamStep db call

-- The branch of ingest_and_publish_once for a batch: a commit moves persisted_lsn
-- and is queued at once.
def persistBatch (world : FeedbackWorld Payload Row) (settings : AdmissionSettings Payload) (batch : IngressBatch Payload)
    (now : Nat) (flush send : WriteStatus) : Except Fault (FeedbackWorld Payload Row) := do
  let ingress ← persistIngressBatch codec settings world.catalog.ingress world.generation batch
  let world := world.withIngress ingress
  match batch.boundary with
  | some (.commit _ endLsn) =>
      let world := { world with persistedLsn := max world.persistedLsn endLsn }
      world.queue.maintainFeedback now false flush send
  | _ => return world

def feedbackStep (world : FeedbackWorld Payload Row) : FeedbackAction Payload → Except Fault (FeedbackWorld Payload Row)
  | .persist settings batch now flush send => persistBatch codec world settings batch now flush send
  | .heartbeat now flush send => world.maintainFeedback now false flush send
  | .replyRequested now flush send => world.maintainFeedback now true flush send
  | .catalog call => do
      let catalog ← catalogCall rowCodec world.catalog world.generation call
      return { world with catalog := catalog }

end Machine

-- What bootstrap_ingress reads for a generation that is active.
def initializeFeedback (catalog : SourceCatalog Payload Row) (replay : ReplayState) (now : Nat) : FeedbackWorld Payload Row where
  catalog := catalog
  generation := replay.slotGeneration
  persistedLsn := replay.persistedLsn.getD 0
  feedback := ⟨replay.confirmedLsn.getD 0, none, none, now - replicationStatusInterval⟩
  events := []

end Shiba.Runtime
